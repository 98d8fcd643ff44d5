import XMLHttpRequest.Request.Answers
import XMLHttpRequest.Session.ClosedStreams
import XMLHttpRequest.Session.Heard

/-
  The stream map as the register of a session's streams.

  `goAway` and `findClosedStreams` read the map, and the close
  of a stream takes its entry out.  What they rely on holds of
  every event of a stream, and so of everything that a session
  hears.

  Key definitions include:
    * `Network.CallbackState.findClosedStreams`
    * `Network.CallbackState.goAwayAll`
    * `Network.CallbackState.KeyedById`
    * `Network.CallbackState.entriesMade`
    * `Network.HttpTlsSession.answersTo`

  Key theorems include:
    * `Network.CallbackState.run_account`
    * `Network.HttpTlsSession.goAwayAll_run`
    * `Network.HttpTlsSession.findClosedStreams_run`
    * `Network.HttpTlsSession.answersTo_run`
-/

------------------------------------------------------------
-- Reading the Map
------------------------------------------------------------

namespace Network

namespace CallbackState

variable (s : CallbackState)

/- The streams of the map; nothing depends on their order. -/
def allStreams : List Stream :=
  s.streams.entries.map (·.2)

/- `findClosedStreams` -/
def findClosedStreams : List Stream :=
  s.allStreams.filter fun strm => strm.state = .closed

/- Every stream stands under its own identifier. -/
def KeyedById : Prop :=
  ∀ id strm, s.findStream id = some strm →
    strm.streamId = id

variable {s}

theorem mem_allStreams_iff {strm : Stream} :
    strm ∈ s.allStreams ↔
      ∃ id, s.findStream id = some strm := by
  unfold allStreams
  rw [List.mem_map]
  constructor
  · rintro ⟨⟨id, found⟩, hMem, rfl⟩
    exact ⟨id, AList.mem_lookup_iff.mpr hMem⟩
  · rintro ⟨id, hFind⟩
    exact ⟨⟨id, strm⟩, AList.mem_lookup_iff.mp hFind, rfl⟩

end CallbackState

end Network

------------------------------------------------------------
-- Events
------------------------------------------------------------

namespace Network

namespace StreamEvent

/- A GOAWAY frame on stream `id` is received or sent. -/
def goesAway (id : StreamId) : StreamEvent → Bool
  | callback (.frameRecv frame) =>
      frame.streamId = id && frame.type = .goaway
  | callback (.beforeFrameSend frame) =>
      frame.streamId = id && frame.type = .goaway
  | _ => false

theorem opens_eq (id : StreamId) (event : StreamEvent) :
    event.opens id =
      (event.beginsHeaders id || event.readmits id) := by
  cases event with
  | registered opened => simp [opens, beginsHeaders, readmits]
  | callback c =>
      cases c <;> simp [opens, beginsHeaders, readmits]

/- An entry that is left to the target carries its name. -/
theorem effect_streamId
    {type : Bytes}
    {entry : Option Stream}
    {strm : Stream}
    (event : StreamEvent)
    (hEntry : ∀ strm ∈ entry, strm.streamId = event.target)
    (hEffect : event.effect type entry = some strm) :
    strm.streamId = event.target := by
  have hGetD
      (other : Stream)
      (hOther : other.streamId = event.target) :
      (entry.getD other).streamId = event.target := by
    cases entry with
    | none => exact hOther
    | some found => exact hEntry found rfl
  have hMap
      {change : Stream → Stream}
      (hMapped : entry.map change = some strm)
      (hChange :
        ∀ strm, (change strm).streamId = strm.streamId) :
      strm.streamId = event.target := by
    rcases Option.map_eq_some_iff.mp hMapped with
      ⟨found, hFound, rfl⟩
    exact (hChange found).trans (hEntry found hFound)
  cases event with
  | registered id =>
      rw [← Option.some.inj hEffect]
      exact hGetD _ rfl
  | callback c =>
      cases c with
      | beginHeaders frame =>
          rw [← Option.some.inj hEffect]
          exact hGetD _ rfl
      | header frame name value noIndex =>
          simp only [effect] at hEffect
          split at hEffect
          · split at hEffect
            · exact hEntry strm hEffect
            · exact hMap hEffect fun _ => rfl
          · exact hMap hEffect fun _ => rfl
          · exact hEntry strm hEffect
      | frameRecv frame => exact hMap hEffect fun _ => rfl
      | dataChunkRecv id data =>
          exact hMap hEffect fun _ => rfl
      | streamClose id => cases hEffect
      | beforeFrameSend frame =>
          rw [← Option.some.inj hEffect,
            Stream.processOutgoingFrame_streamId]
          exact hGetD _ rfl

/- Only a GOAWAY frame closes an entry that stays. -/
theorem effect_closed
    {type : Bytes}
    {entry : Option Stream}
    {strm : Stream}
    (event : StreamEvent)
    (hEffect : event.effect type entry = some strm)
    (hClosed : strm.state = .closed) :
    event.goesAway event.target = true ∨
      ∃ before ∈ entry, before.state = .closed := by
  have hSame
      (hEntry : entry = some strm) :
      ∃ before ∈ entry, before.state = .closed :=
    ⟨strm, hEntry, hClosed⟩
  have hCreate (id : StreamId) :
      (Stream.create id).state ≠ .closed := by
    simp [Stream.create]
  have hGetD
      (other : Stream)
      (hOther : other.state ≠ .closed)
      (hFound : (entry.getD other).state = .closed) :
      ∃ before ∈ entry, before.state = .closed := by
    cases entry with
    | none => exact absurd hFound hOther
    | some found => exact ⟨found, rfl, hFound⟩
  have hMap
      {change : Stream → Stream}
      (hMapped : entry.map change = some strm)
      (hChange :
        ∀ strm, (change strm).state = .closed →
          strm.state = .closed) :
      ∃ before ∈ entry, before.state = .closed := by
    rcases Option.map_eq_some_iff.mp hMapped with
      ⟨found, hFound, rfl⟩
    exact ⟨found, hFound, hChange found hClosed⟩
  cases event with
  | registered id =>
      rw [← Option.some.inj hEffect] at hClosed
      exact .inr (hGetD _ (hCreate _) hClosed)
  | callback c =>
      cases c with
      | beginHeaders frame =>
          rw [← Option.some.inj hEffect] at hClosed
          exact .inr (hGetD _ (hCreate _) hClosed)
      | header frame name value noIndex =>
          simp only [effect] at hEffect
          split at hEffect
          · split at hEffect
            · exact .inr (hSame hEffect)
            · exact .inr (hMap hEffect fun _ hEnd => hEnd)
          · refine .inr (hMap hEffect ?_)
            intro found
            simp only
            split
            · intro hEnd
              cases hEnd
            · exact id
          · exact .inr (hSame hEffect)
      | frameRecv frame =>
          by_cases hType : frame.type = .goaway
          · exact .inl (by simp [goesAway, target, hType])
          · refine .inr (hMap hEffect ?_)
            intro found hEnd
            by_contra hOpen
            revert hEnd
            simp only [CallbackState.receivedState]
            cases hFrame : frame.type <;> grind
      | dataChunkRecv id data =>
          exact .inr (hMap hEffect fun _ hEnd => hEnd)
      | streamClose id => cases hEffect
      | beforeFrameSend frame =>
          by_cases hType : frame.type = .goaway
          · exact .inl (by simp [goesAway, target, hType])
          · rw [← Option.some.inj hEffect] at hClosed
            have hOpened :
                ({ Stream.create frame.streamId with
                  state := .«open» } : Stream).state ≠
                    .closed := by simp
            refine .inr (hGetD _ hOpened ?_)
            rw [← hClosed]
            unfold Stream.processOutgoingFrame
            split
            · rfl
            · rename_i hGoaway
              exact absurd hGoaway hType
            · rfl

end StreamEvent

namespace CallbackState

variable {s : CallbackState}

theorem KeyedById.step
    (hKeyed : s.KeyedById)
    (event : StreamEvent) :
    (s.step event).KeyedById := by
  intro id strm hFind
  rw [findStream_step] at hFind
  split at hFind
  · rename_i hTarget
    rw [hTarget] at hFind ⊢
    exact event.effect_streamId
      (fun found hFound => hKeyed _ found hFound) hFind
  · exact hKeyed id strm hFind

/- A stream that an event leaves closed has gone away. -/
theorem closed_of_step
    {id : StreamId}
    {strm : Stream}
    (event : StreamEvent)
    (hFind : (s.step event).findStream id = some strm)
    (hClosed : strm.state = .closed) :
    event.goesAway id = true ∨
      ∃ before ∈ s.findStream id, before.state = .closed := by
  rw [findStream_step] at hFind
  split at hFind
  · rename_i hTarget
    rw [hTarget] at hFind ⊢
    exact event.effect_closed hFind hClosed
  · exact .inr ⟨strm, hFind, hClosed⟩

theorem closed_of_run
    {id : StreamId}
    {strm : Stream}
    {events : List StreamEvent}
    (hFind : (s.run events).findStream id = some strm)
    (hClosed : strm.state = .closed) :
    (∃ event ∈ events, event.goesAway id = true) ∨
      ∃ before ∈ s.findStream id, before.state = .closed := by
  induction events generalizing s with
  | nil => exact .inr ⟨strm, hFind, hClosed⟩
  | cons event events ih =>
      rcases ih hFind with ⟨later, hLater, hGoes⟩ |
        ⟨found, hFound, hEarlier⟩
      · exact .inl
          ⟨later, List.mem_cons_of_mem _ hLater, hGoes⟩
      · rcases closed_of_step event hFound hEarlier with
          hGoes | hBefore
        · exact .inl ⟨event, List.mem_cons_self, hGoes⟩
        · exact .inr hBefore

end CallbackState

end Network

------------------------------------------------------------
-- Entries
------------------------------------------------------------

namespace Network

/- Nothing but the close of a stream takes its entry. -/
theorem StreamEvent.effect_isSome
    {type : Bytes}
    {event : StreamEvent}
    (hOpen : event ≠ .close event.target)
    (strm : Stream) :
    (event.effect type (some strm)).isSome = true := by
  cases event with
  | registered id => rfl
  | callback c =>
      cases c with
      | header frame name value noIndex =>
          simp only [effect]
          split
          · split <;> rfl
          · rfl
          · rfl
      | streamClose id => exact absurd rfl hOpen
      | _ => rfl

namespace CallbackState

variable (s : CallbackState)

/- The event makes an entry for stream `id`, which had none. -/
def makesEntry
    (id : StreamId)
    (event : StreamEvent) : Bool :=
  (s.findStream id).isNone &&
    ((s.step event).findStream id).isSome

/- The events of a run that make an entry for stream `id`. -/
def entriesMade
    (id : StreamId)
    (s : CallbackState)
    (events : List StreamEvent) : List StreamEvent :=
  Unwinding.trace step
    (fun s event =>
      if s.makesEntry id event then [event] else [])
    s events

theorem opens_of_makesEntry
    {id : StreamId}
    {event : StreamEvent}
    (hMakes : s.makesEntry id event = true) :
    event.opens id = true := by
  by_contra hOpens
  unfold makesEntry at hMakes
  rw [Bool.and_eq_true, Option.isNone_iff_eq_none,
    findStream_step] at hMakes
  rcases hMakes with ⟨hNone, hSome⟩
  split at hSome
  · rename_i hTarget
    rw [Bool.not_eq_true, hTarget, StreamEvent.opens_eq,
      Bool.or_eq_false_iff] at hOpens
    rw [hNone, StreamEvent.effect_none hOpens.1 hOpens.2]
      at hSome
    cases hSome
  · rw [hNone] at hSome
    cases hSome

theorem opens_of_entriesMade
    {id : StreamId}
    {events : List StreamEvent} :
    ∀ event ∈ s.entriesMade id events,
      event.opens id = true := by
  induction events generalizing s with
  | nil => simp [entriesMade]
  | cons first events ih =>
      intro event hMem
      unfold entriesMade at hMem
      rw [Unwinding.trace_cons] at hMem
      rcases List.mem_append.mp hMem with hFirst | hLater
      · split at hFirst
        · rename_i hMakes
          rw [List.mem_singleton.mp hFirst]
          exact s.opens_of_makesEntry hMakes
        · cases hFirst
      · exact ih (s.step first) event hLater

/-
  The entry of a stream before and after an event: what takes
  one is reported, unless nobody listens.
-/
theorem step_account
    (id : StreamId)
    (event : StreamEvent) :
    ∃ unheard,
      (readyCallsOf id s event).length + unheard +
          ((s.step event).findStream id).isSome.toNat =
        (s.findStream id).isSome.toNat +
          (s.makesEntry id event).toNat ∧
      (s.onReadyCb.isSome = true → unheard = 0) := by
  unfold makesEntry
  rw [readyCallsOf_eq, findStream_step]
  by_cases hClose : event = .close id
  · subst hClose
    have hTarget : id = (StreamEvent.close id).target := rfl
    rw [if_pos rfl, if_pos hTarget]
    cases hFind : s.findStream id with
    | none =>
        exact ⟨0, by simp [StreamEvent.effect], fun _ => rfl⟩
    | some strm =>
        unfold callReady
        cases s.onReadyCb with
        | none =>
            refine ⟨1, by simp [StreamEvent.effect], ?_⟩
            intro hListens
            cases hListens
        | some closure =>
            exact ⟨0, by simp [StreamEvent.effect], fun _ => rfl⟩
  · rw [if_neg hClose]
    refine ⟨0, ?_, fun _ => rfl⟩
    split
    · rename_i hTarget
      subst hTarget
      cases hFind : s.findStream event.target with
      | none => simp
      | some strm =>
          simp [StreamEvent.effect_isSome hClose]
    · cases s.findStream id <;> simp

theorem run_account
    (id : StreamId)
    (events : List StreamEvent) :
    ∃ unheard,
      (readyCalls id s events).length + unheard +
          ((s.run events).findStream id).isSome.toNat =
        (s.findStream id).isSome.toNat +
          (s.entriesMade id events).length ∧
      (s.onReadyCb.isSome = true → unheard = 0) := by
  induction events generalizing s with
  | nil =>
      exact ⟨0, by simp [readyCalls, entriesMade, run],
        fun _ => rfl⟩
  | cons event events ih =>
      rcases s.step_account id event with
        ⟨first, hFirst, hHeard⟩
      rcases ih (s.step event) with ⟨later, hLater, hRest⟩
      have hCalls :
          (readyCalls id s (event :: events)).length =
            (readyCallsOf id s event).length +
              (readyCalls id (s.step event) events).length := by
        rw [← List.length_append]
        rfl
      have hMade :
          (s.entriesMade id (event :: events)).length =
            (s.makesEntry id event).toNat +
              ((s.step event).entriesMade id
                events).length := by
        unfold entriesMade
        rw [Unwinding.trace_cons, List.length_append]
        cases s.makesEntry id event <;> rfl
      have hRun :
          s.run (event :: events) = (s.step event).run events :=
        rfl
      refine ⟨first + later, ?_, ?_⟩
      · rw [hCalls, hMade, hRun]
        omega
      · intro hListens
        have hStill :
            (s.step event).onReadyCb.isSome = true := by
          rw [(s.step_settings event).2.1]
          exact hListens
        rw [hHeard hListens, hRest hStill]

end CallbackState

end Network

------------------------------------------------------------
-- Runs
------------------------------------------------------------

namespace Network

namespace HttpTlsSession

variable {s s' : HttpTlsSession}
variable {events : List QueuedEvent}

/- How often the close of stream `id` has been reported. -/
def answersTo (s : HttpTlsSession) (id : StreamId) : Nat :=
  (answersOf s.log).countP fun answer => answer.id = id

theorem Fresh.findStream
    (hFresh : s.Fresh)
    (id : StreamId) :
    s.findStream id = none := by
  unfold CallbackState.findStream
  rw [hFresh.streams]
  rfl

theorem keyedById_run
    (hFresh : s.Fresh)
    (hRun :
      Transition.exec stepQueued s events = some s') :
    s'.KeyedById := by
  refine (execQueued_hears hRun).invariant
    (I := fun heard => heard.callbackState.KeyedById) ?_ ?_
  · exact fun heard event _ hKeyed => hKeyed.step event
  · intro id strm hFind
    exact absurd (hFind.symm.trans (hFresh.findStream id))
      nofun

/- Stream zero, to which a GOAWAY frame is received. -/
def goawayRecv : Recv where
  upcalls :=
    [.callback
        (.beforeFrameSend { streamId := 0, type := .settings }),
      .callback (.frameRecv { streamId := 0, type := .goaway })]
  rv := 1

def goawayRun : List QueuedEvent :=
  [.session (.startResolve h2Connection),
    .session (.readDone {} 1 goawayRecv)]

theorem goawayRun_closes :
    (Transition.exec stepQueued
        (create (ascii "a") (ascii "443") zeroGarbage)
        goawayRun).map (fun s => s.findClosedStreams.length) =
      some 1 := by
  decide +kernel

/-
  In every state of every run a stream that
  `findClosedStreams` returns has had a GOAWAY frame, received
  or sent, of which the session has heard: the streams that
  were closed have left the map.
-/
theorem findClosedStreams_run
    (hFresh : s.Fresh)
    (hRun :
      Transition.exec stepQueued s events = some s') :
    ∃ heard : List StreamEvent,
      heard.Sublist (runEvents events) ∧
      s'.toCallbackState = s.toCallbackState.run heard ∧
      ∀ strm ∈ s'.findClosedStreams,
        ∃ event ∈ heard,
          event.goesAway strm.streamId = true := by
  rcases execQueued_hears hRun with
    ⟨heard, hListed, hHeard⟩
  rw [Hearing.foldl_hear, Hearing.mk.injEq] at hHeard
  have hState : s'.toCallbackState = s.run heard :=
    hHeard.1.symm
  refine ⟨heard, hListed, hState, ?_⟩
  intro strm hMem
  rcases List.mem_filter.mp hMem with ⟨hFound, hClosed⟩
  rcases CallbackState.mem_allStreams_iff.mp hFound with
    ⟨id, hFind⟩
  rw [keyedById_run hFresh hRun id strm hFind]
  rw [hState] at hFind
  rcases CallbackState.closed_of_run hFind
      (of_decide_eq_true hClosed) with
    hGoes | ⟨before, hBefore, _⟩
  · exact hGoes
  · rw [hFresh.findStream id] at hBefore
    cases hBefore

theorem findClosedStreams_run_goaway :
    ∃ s' heard,
      Transition.exec stepQueued
          (create (ascii "a") (ascii "443") zeroGarbage)
          goawayRun = some s' ∧
        (s'.findClosedStreams).length = 1 ∧
        List.Sublist heard (runEvents goawayRun) ∧
        ∀ strm ∈ s'.findClosedStreams,
          ∃ event ∈ heard,
            event.goesAway strm.streamId = true := by
  rcases Option.map_eq_some_iff.mp goawayRun_closes with
    ⟨s', hRun, hOne⟩
  rcases findClosedStreams_run (create_fresh _ _ _) hRun with
    ⟨heard, hListed, _, hAll⟩
  exact ⟨s', heard, hRun, hOne, hListed, hAll⟩

theorem answersTo_eq (id : StreamId) :
    s.answersTo id =
      s.hearing.calls.countP (·.isReadyOf id) := by
  unfold answersTo answersOf hearing
  rw [List.countP_filterMap, List.countP_filterMap]
  apply List.countP_congr
  intro entry _
  cases entry with
  | call c => cases c <;> simp [Invocation.answer?,
      Invocation.call?, Call.isReadyOf]
  | started closure => rfl
  | stopped closure => rfl

/-
  In every state of every run the close of a stream has been
  reported no more often than an entry was made for it, one
  entry being kept back while the stream is in the map; just
  as often, if somebody listens.
-/
theorem answersTo_run
    (hFresh : s.Fresh)
    (hRun :
      Transition.exec stepQueued s events = some s')
    (id : StreamId) :
    ∃ heard : List StreamEvent,
      heard.Sublist (runEvents events) ∧
      s'.toCallbackState = s.toCallbackState.run heard ∧
      (∀ event ∈ s.entriesMade id heard,
        event.opens id = true) ∧
      s'.answersTo id + (s'.findStream id).isSome.toNat ≤
        (s.entriesMade id heard).length ∧
      (s.onReadyCb.isSome = true →
        s'.answersTo id + (s'.findStream id).isSome.toNat =
          (s.entriesMade id heard).length) := by
  rcases execQueued_hears hRun with
    ⟨heard, hListed, hHeard⟩
  rw [Hearing.foldl_hear, Hearing.mk.injEq] at hHeard
  rcases hHeard with ⟨hState, hCalls⟩
  have hAnswers :
      s'.answersTo id =
        (CallbackState.readyCalls id s.toCallbackState
          heard).length := by
    rw [answersTo_eq, ← hCalls, hearing, hFresh.log,
      List.filterMap_nil, List.nil_append,
      List.countP_eq_length_filter, CallbackState.trace_filter]
  rcases s.toCallbackState.run_account id heard with
    ⟨unheard, hAccount, hHeard⟩
  rw [hFresh.findStream id, ← hAnswers] at hAccount
  simp only [Option.isSome_none, Bool.toNat_false,
    Nat.zero_add] at hAccount
  have hEntry :
      s'.findStream id =
        (s.toCallbackState.run heard).findStream id :=
    congrArg (·.findStream id) hState.symm
  rw [hEntry]
  refine ⟨heard, hListed, hState.symm,
    s.opens_of_entriesMade, by omega, ?_⟩
  intro hListens
  rw [hHeard hListens, Nat.add_zero] at hAccount
  exact hAccount

/- A session with somebody who listens for its responses. -/
def heardSession : HttpTlsSession :=
  { create (ascii "a") (ascii "443") zeroGarbage with
    onReadyCb := some ⟨some 1⟩ }

theorem heardSession_fresh : heardSession.Fresh := by
  constructor <;> rfl

theorem answersTo_run_brief :
    ∃ s' heard,
      Transition.exec stepQueued heardSession briefRun =
          some s' ∧
        s'.answersTo 2 = 1 ∧
        List.Sublist heard (runEvents briefRun) ∧
        s'.answersTo 2 + (s'.findStream 2).isSome.toNat =
          (heardSession.entriesMade 2 heard).length := by
  have hAnswered :
      (Transition.exec stepQueued heardSession briefRun).map
          (·.answersTo 2) = some 1 := by
    decide +kernel
  rcases Option.map_eq_some_iff.mp hAnswered with
    ⟨s', hRun, hOne⟩
  rcases answersTo_run heardSession_fresh hRun 2 with
    ⟨heard, hListed, _, _, _, hAccount⟩
  exact ⟨s', heard, hRun, hOne, hListed, hAccount rfl⟩

end HttpTlsSession

end Network
