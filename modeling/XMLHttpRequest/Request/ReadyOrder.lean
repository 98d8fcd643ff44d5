import XMLHttpRequest.Library.Register
import XMLHttpRequest.Request.Frames
import XMLHttpRequest.Session.ResponseAssembly

/-
  The order in which a request goes through its states.

  Every field of a header block and every chunk of a body
  passes its own state, whatever the state before.  So the
  states go back exactly when fields of a trailer follow
  chunks of the body.

  Key definitions include:
    * `Network.Impl.deliver`
    * `Network.Impl.NeverGoesBack`
    * `Network.Exchange`

  Key theorems include:
    * `Network.Impl.deliver_announces`
    * `Network.Impl.deliverAll_announces`
    * `Network.Exchange.neverGoesBack_iff`
-/

------------------------------------------------------------
-- States That Are Passed
------------------------------------------------------------

namespace Network

/- The states that closures for state changes were given. -/
def statesOf (log : List Invocation) : List ReadyState :=
  log.filterMap fun invocation =>
    match invocation with
    | .call (.stateChange _ state) => some state
    | _ => none

/- The state that a callback of a stream in the map passes. -/
def Callback.announces : Callback → Option ReadyState
  | .header frame _ _ _ =>
      if frame.type = .headers then some .headersReceived
      else none
  | .dataChunkRecv _ _ => some .loading
  | .streamClose _ => some .done
  | _ => none

namespace Impl

variable (d : Impl)

/- The states passed since the session was created. -/
def passedStates : List ReadyState :=
  match d.session with
  | some s => statesOf s.log
  | none => []

/- Let nghttp2 make a callback. -/
def deliver (c : Callback) : Impl :=
  match d.session with
  | some s =>
      d.absorb s.log.length ((d.enter s).runCallback c)
  | none => d

def deliverAll (callbacks : List Callback) : Impl :=
  callbacks.foldl deliver d

/- The state stored at first and after each callback. -/
def storedStates
    (d : Impl) :
    List Callback → List ReadyState
  | [] => [d.readyState]
  | c :: callbacks =>
      d.readyState :: (d.deliver c).storedStates callbacks

/- Neither the stored nor the passed states ever go back. -/
def NeverGoesBack (callbacks : List Callback) : Prop :=
  (d.storedStates callbacks).IsChain (· ≤ ·) ∧
    (d.deliverAll callbacks).passedStates.IsChain (· ≤ ·)

/-
  The request has been opened and its stream registered; the
  closure for state changes has only been told of the open.
-/
structure AwaitsResponse (id : StreamId) : Prop where
  opened : d.readyState = .opened
  passed : d.passedStates = [.opened]
  session :
    ∃ s, d.session = some s ∧
      s.onReadyStateChange.isSome = true ∧
      (s.findStream id).isSome = true

end Impl

end Network

------------------------------------------------------------
-- Exchanges
------------------------------------------------------------

namespace Network

/- A header block of any category. -/
structure HeaderBlock where
  fields : List Field
  cat : HeadersCategory := .response
  endStream : Bool := false

def HeaderBlock.callbacks
    (block : HeaderBlock)
    (id : StreamId) : List Callback :=
  blockCallbacks (headersFrame id block.cat block.endStream)
    block.fields

/- What a peer sends on a stream before it is closed. -/
structure Exchange where
  blocks : List HeaderBlock
  frames : List DataFrame := []
  trailer : Option (List Field) := none

namespace Exchange

variable (exchange : Exchange)

def received (id : StreamId) : List Callback :=
  exchange.blocks.flatMap (·.callbacks id) ++
    exchange.frames.flatMap (·.callbacks id) ++
    exchange.trailer.toList.flatMap fun fields =>
      blockCallbacks (headersFrame id .headers true) fields

def callbacks (id : StreamId) : List Callback :=
  exchange.received id ++ [.streamClose id]

/- The chunks of the body. -/
def chunks : List Bytes :=
  exchange.frames.flatMap (·.chunks)

/- The fields of the trailer, if there is one. -/
def trailerFields : List Field :=
  exchange.trailer.getD []

/-
  The callbacks are those of the exchange, but for ones that
  pass no state.
-/
def IsDeliveredBy
    (id : StreamId)
    (callbacks : List Callback) : Prop :=
  callbacks.filter (·.announces.isSome) =
    (exchange.callbacks id).filter (·.announces.isSome)

end Exchange

end Network

------------------------------------------------------------
-- A Callback
------------------------------------------------------------

namespace Network

theorem statesOf_append (first second : List Invocation) :
    statesOf (first ++ second) =
      statesOf first ++ statesOf second :=
  List.filterMap_append

namespace CallbackState

variable (s : CallbackState)

theorem statesOf_callStateChange
    (hSet : s.onReadyStateChange.isSome = true)
    (state : ReadyState) :
    statesOf ((s.callStateChange state).map .call) =
      [state] := by
  rcases Option.isSome_iff_exists.mp hSet with
    ⟨closure, hClosure⟩
  simp [callStateChange, hClosure, statesOf]

theorem statesOf_callReady
    (id : StreamId)
    (strm : Stream) :
    statesOf ((s.callReady id strm).map .call) = [] := by
  unfold callReady
  split <;> rfl

/- The close of a stream outside the map passes nothing. -/
theorem statesOf_apply
    (hSet : s.onReadyStateChange.isSome = true)
    (c : Callback)
    (hFound :
      ∀ id, c = .streamClose id →
        (s.findStream id).isSome = true) :
    statesOf ((s.apply c).2.map .call) =
      c.announces.toList := by
  cases c with
  | beginHeaders frame => rfl
  | header frame name value noIndex =>
      cases hType : frame.type with
      | headers =>
          simpa [apply, onHeaderCallback, hType,
            Callback.announces] using
            s.statesOf_callStateChange hSet .headersReceived
      | _ =>
          simp [apply, onHeaderCallback, hType,
            Callback.announces, statesOf]
  | frameRecv frame => rfl
  | dataChunkRecv id data =>
      exact s.statesOf_callStateChange hSet .loading
  | streamClose id =>
      rcases Option.isSome_iff_exists.mp (hFound id rfl) with
        ⟨strm, hStrm⟩
      simp only [apply, onStreamCloseCallback, hStrm,
        List.map_append, statesOf_append,
        s.statesOf_callStateChange hSet,
        statesOf_callReady, Callback.announces]
      rfl
  | beforeFrameSend frame => rfl

/- A stream stays in the map until its close. -/
theorem apply_findStream_isSome
    (id : StreamId)
    (c : Callback)
    (hFound : (s.findStream id).isSome = true)
    (hOpen : c ≠ .streamClose id) :
    ((s.apply c).1.findStream id).isSome = true := by
  change ((s.step (.callback c)).findStream id).isSome = true
  rw [findStream_step]
  split
  · rename_i hTarget
    cases c with
    | header frame name value noIndex =>
        simp only [StreamEvent.effect]
        split
        · split <;> simpa using hFound
        · simpa using hFound
        · exact hFound
    | streamClose closed =>
        exact absurd (congrArg _ hTarget.symm) hOpen
    | _ => simp_all [StreamEvent.effect]
  · exact hFound

end CallbackState

namespace Impl

variable (d : Impl)

/- The state is the last one that was passed. -/
theorem foldl_notice_readyState
    (invocations : List Invocation) :
    (invocations.foldl notice d).readyState =
      (statesOf invocations).getLastD d.readyState := by
  induction invocations generalizing d with
  | nil => rfl
  | cons invocation invocations ih =>
      rw [List.foldl_cons, ih]
      cases invocation with
      | call c =>
          cases c with
          | stateChange closure state =>
              exact List.getLastD_cons.symm
          | ready closure id rq rp => rfl
      | started closure => rfl
      | stopped closure => rfl

/- A callback passes and stores the state it announces. -/
theorem deliver_announces
    {s : HttpTlsSession}
    (hSession : d.session = some s)
    (hSet : s.onReadyStateChange.isSome = true)
    (c : Callback)
    (hFound :
      ∀ id, c = .streamClose id →
        (s.findStream id).isSome = true) :
    ∃ s', (d.deliver c).session = some s' ∧
      s'.toCallbackState = (s.toCallbackState.apply c).1 ∧
      statesOf s'.log =
        statesOf s.log ++ c.announces.toList ∧
      (d.deliver c).readyState =
        c.announces.getD d.readyState := by
  have hStates :=
    s.toCallbackState.statesOf_apply hSet c hFound
  have hLog := (d.enter s).runCallback_log c
  refine ⟨(d.enter s).runCallback c, ?_, ?_, ?_, ?_⟩
  · simp only [deliver, hSession, absorb]
  · exact (d.enter s).runCallback_toCallbackState c
  · rw [hLog, statesOf_append]
    exact congrArg (statesOf s.log ++ ·) hStates
  · have hDrop :
        ((d.enter s).runCallback c).log.drop s.log.length =
          (s.toCallbackState.apply c).2.map .call := by
      rw [hLog]
      exact List.drop_left
    simp only [deliver, hSession, absorb]
    rw [hDrop, foldl_notice_readyState, hStates]
    cases c.announces <;> rfl

end Impl

end Network

------------------------------------------------------------
-- Runs of Callbacks
------------------------------------------------------------

namespace Network

namespace CallbackState

/- Every close of the run finds its stream in the map. -/
def ClosesFound
    (s : CallbackState) :
    List Callback → Prop
  | [] => True
  | c :: callbacks =>
      (∀ id, c = .streamClose id →
        (s.findStream id).isSome = true) ∧
      (s.apply c).1.ClosesFound callbacks

variable (s : CallbackState)

theorem closesFound_of_no_close
    (callbacks : List Callback)
    (hOpen :
      ∀ c ∈ callbacks, ∀ id, c ≠ .streamClose id) :
    s.ClosesFound callbacks := by
  induction callbacks generalizing s with
  | nil => trivial
  | cons c callbacks ih =>
      rw [List.forall_mem_cons] at hOpen
      exact ⟨fun id hClose => absurd hClose (hOpen.1 id),
        ih _ hOpen.2⟩

/- A run that closes a registered stream last finds it. -/
theorem closesFound_of_last
    {id : StreamId}
    (hFound : (s.findStream id).isSome = true)
    (callbacks before : List Callback)
    (hOpen : ∀ c ∈ before, ∀ id, c ≠ .streamClose id)
    (hLast :
      callbacks.filter (·.announces.isSome) =
        before ++ [.streamClose id]) :
    s.ClosesFound callbacks := by
  induction callbacks generalizing s before with
  | nil => trivial
  | cons c callbacks ih =>
      cases hAnnounces : c.announces.isSome with
      | false =>
          have hNoClose : ∀ id, c ≠ .streamClose id := by
            rintro closed rfl
            cases hAnnounces
          simp only [List.filter_cons, hAnnounces,
            Bool.false_eq_true, if_false] at hLast
          exact ⟨fun id hClose => absurd hClose (hNoClose id),
            ih _ (s.apply_findStream_isSome id c hFound
              (hNoClose id)) before hOpen hLast⟩
      | true =>
          simp only [List.filter_cons, hAnnounces,
            if_true] at hLast
          cases before with
          | nil =>
              rcases List.cons_eq_cons.mp hLast with
                ⟨rfl, hRest⟩
              constructor
              · intro closed hClose
                cases hClose
                exact hFound
              · apply closesFound_of_no_close
                rintro c hMem closed rfl
                exact absurd rfl
                  (List.filter_eq_nil_iff.mp hRest _ hMem)
          | cons first before =>
              rcases List.cons_eq_cons.mp hLast with
                ⟨rfl, hRest⟩
              rw [List.forall_mem_cons] at hOpen
              exact
                ⟨fun id hClose =>
                    absurd hClose (hOpen.1 id),
                  ih _ (s.apply_findStream_isSome id c
                    hFound (hOpen.1 id)) before hOpen.2
                    hRest⟩

end CallbackState

namespace Impl

variable (d : Impl)

/- What a run stores and passes, from its callbacks alone. -/
theorem deliverAll_announces
    {s : HttpTlsSession}
    (hSession : d.session = some s)
    (hSet : s.onReadyStateChange.isSome = true)
    (callbacks : List Callback)
    (hFound : s.ClosesFound callbacks) :
    d.storedStates callbacks =
        Register.history Callback.announces d.readyState
          callbacks ∧
      (d.deliverAll callbacks).passedStates =
        d.passedStates ++
          callbacks.filterMap Callback.announces := by
  induction callbacks generalizing d s with
  | nil => exact ⟨rfl, (List.append_nil _).symm⟩
  | cons c callbacks ih =>
      rcases d.deliver_announces hSession hSet c hFound.1
        with ⟨s', hNext, hState, hPassed, hReady⟩
      have hSet' : s'.onReadyStateChange.isSome = true := by
        rw [hState]
        have hKept := (s.step_settings (.callback c)).2.2
        exact (congrArg _ hKept).trans hSet
      have hFirst :
          (d.deliver c).passedStates =
            d.passedStates ++ c.announces.toList := by
        simp only [passedStates, hNext, hSession, hPassed]
      rcases ih (d.deliver c) hNext hSet' (hState ▸ hFound.2)
        with ⟨hStored, hRest⟩
      constructor
      · simp only [storedStates, Register.history]
        rw [hStored, hReady]
      · have hAll :
            d.deliverAll (c :: callbacks) =
              (d.deliver c).deliverAll callbacks := rfl
        rw [hAll, hRest, hFirst, List.append_assoc]
        cases hAnnounces : c.announces <;> simp [hAnnounces]

end Impl

end Network

------------------------------------------------------------
-- Runs of Exchanges
------------------------------------------------------------

namespace Network

/- Pieces that all announce one state announce it together. -/
theorem flatMap_announces
    {α β : Type*}
    {state : ReadyState}
    {callbacks : α → List Callback}
    {items : α → List β}
    (hPiece :
      ∀ piece,
        (callbacks piece).filterMap Callback.announces =
          List.replicate (items piece).length state)
    (pieces : List α) :
    (pieces.flatMap callbacks).filterMap
        Callback.announces =
      List.replicate (pieces.flatMap items).length
        state := by
  induction pieces with
  | nil => rfl
  | cons piece pieces ih =>
      rw [List.flatMap_cons, List.filterMap_append, hPiece,
        ih, List.replicate_append_replicate,
        List.flatMap_cons, List.length_append]

theorem blockCallbacks_announces
    (id : StreamId)
    (cat : HeadersCategory)
    (endStream : Bool)
    (fields : List Field) :
    (blockCallbacks (headersFrame id cat endStream)
        fields).filterMap Callback.announces =
      List.replicate fields.length .headersReceived := by
  simp [blockCallbacks, headersFrame, Callback.announces,
    List.filterMap_cons, List.filterMap_map,
    Function.comp_def]

theorem DataFrame.callbacks_announces
    (frame : DataFrame)
    (id : StreamId) :
    (frame.callbacks id).filterMap Callback.announces =
      List.replicate frame.chunks.length .loading := by
  simp [DataFrame.callbacks, Callback.announces,
    List.filterMap_map, Function.comp_def]

namespace Exchange

variable (exchange : Exchange)

/- The fields of all header blocks before the body. -/
def fields : List Field :=
  exchange.blocks.flatMap (·.fields)

/- Header blocks, the body and the trailer in this order. -/
theorem received_announces (id : StreamId) :
    (exchange.received id).filterMap Callback.announces =
      List.replicate exchange.fields.length
          .headersReceived ++
        List.replicate exchange.chunks.length .loading ++
        List.replicate exchange.trailerFields.length
          .headersReceived := by
  rw [received, List.filterMap_append,
    List.filterMap_append]
  congr 1
  · congr 1
    · exact flatMap_announces
        (fun block => blockCallbacks_announces _ _ _
          block.fields) exchange.blocks
    · exact flatMap_announces
        (fun frame => frame.callbacks_announces id)
        exchange.frames
  · unfold trailerFields
    cases exchange.trailer with
    | none => rfl
    | some fields =>
        rw [Option.toList_some, List.flatMap_singleton]
        exact blockCallbacks_announces _ _ _ fields

/- Nothing but the close at the end is a close. -/
theorem not_close_of_mem_received
    {id : StreamId}
    {c : Callback}
    (hMem : c ∈ exchange.received id)
    (closed : StreamId) :
    c ≠ .streamClose closed := by
  rintro rfl
  have hDone :
      ReadyState.done ∈
        (exchange.received id).filterMap
          Callback.announces :=
    List.mem_filterMap.mpr ⟨_, hMem, rfl⟩
  rw [received_announces] at hDone
  simp at hDone

theorem pairwise_of_no_trailer (fields chunks : Nat) :
    (ReadyState.opened ::
        (List.replicate fields .headersReceived ++
          List.replicate chunks .loading ++
          [.done])).Pairwise (· ≤ ·) := by
  simp only [List.pairwise_cons, List.pairwise_append,
    List.mem_append, List.mem_replicate,
    List.mem_singleton]
  refine ⟨?_, ⟨?_, ?_, ?_⟩, ⟨by simp, .nil⟩, ?_⟩
  · rintro state ((⟨_, rfl⟩ | ⟨_, rfl⟩) | rfl) <;> decide
  · simp [List.pairwise_replicate, ReadyState.le_refl]
  · simp [List.pairwise_replicate, ReadyState.le_refl]
  · rintro state ⟨_, rfl⟩ _ ⟨_, rfl⟩
    decide
  · rintro state (⟨_, rfl⟩ | ⟨_, rfl⟩) _ rfl <;> decide

/- States in the order in which an exchange passes them. -/
theorem isChain_states_iff (fields chunks trailer : Nat) :
    (ReadyState.opened ::
        (List.replicate fields .headersReceived ++
          List.replicate chunks .loading ++
          List.replicate trailer .headersReceived ++
          [.done])).IsChain (· ≤ ·) ↔
      chunks = 0 ∨ trailer = 0 := by
  rw [List.isChain_iff_pairwise]
  constructor
  · intro hStates
    rw [List.pairwise_cons, List.pairwise_append,
      List.pairwise_append] at hStates
    rcases hStates with ⟨_, ⟨_, _, hBack⟩, _⟩
    by_contra hBoth
    rw [not_or] at hBoth
    have hLoading := hBack .loading
      (by simp [hBoth.1]) .headersReceived
      (by simp [hBoth.2])
    exact absurd hLoading (by decide)
  · rintro (rfl | rfl)
    · simpa [List.replicate_append_replicate] using
        pairwise_of_no_trailer (fields + trailer) 0
    · simpa using pairwise_of_no_trailer fields chunks

/-
  The states of an exchange never go back exactly when it has
  no chunk of a body, or no field of a trailer.
-/
theorem neverGoesBack_iff
    (d : Impl)
    (id : StreamId)
    (hAwaits : d.AwaitsResponse id)
    (callbacks : List Callback)
    (hDelivered : exchange.IsDeliveredBy id callbacks) :
    d.NeverGoesBack callbacks ↔
      exchange.chunks = [] ∨
        exchange.trailerFields = [] := by
  rcases hAwaits.session with ⟨s, hSession, hSet, hStream⟩
  have hLast :
      callbacks.filter (·.announces.isSome) =
        (exchange.received id).filter
            (·.announces.isSome) ++ [.streamClose id] := by
    rw [hDelivered, Exchange.callbacks, List.filter_append]
    rfl
  have hFound : s.ClosesFound callbacks := by
    refine s.closesFound_of_last hStream callbacks _ ?_ hLast
    intro c hMem closed
    exact exchange.not_close_of_mem_received
      (List.mem_of_mem_filter hMem) closed
  have hStates :
      callbacks.filterMap Callback.announces =
        (exchange.received id).filterMap
          Callback.announces ++ [.done] := by
    have hWritten := congrArg
      (List.filterMap Callback.announces) hDelivered
    rw [Register.filterMap_filter_isSome,
      Register.filterMap_filter_isSome] at hWritten
    rw [hWritten, Exchange.callbacks,
      List.filterMap_append]
    rfl
  rcases d.deliverAll_announces hSession hSet callbacks
      hFound with ⟨hStored, hPassed⟩
  rw [Impl.NeverGoesBack, hStored, hPassed, hAwaits.opened,
    hAwaits.passed,
    Register.isChain_history_iff ReadyState.le_refl,
    List.singleton_append, and_self, hStates,
    received_announces, isChain_states_iff,
    List.length_eq_zero_iff, List.length_eq_zero_iff]

/- A request that has been submitted on stream 1. -/
def submittedRun : List RequestEvent :=
  [Impl.openRoot true, .send] ++ Impl.submitJobs

theorem submittedRun_awaits :
    ∃ d, Transition.exec Impl.step {} submittedRun = some d ∧
      d.AwaitsResponse 1 := by
  have hEnd :
      (Transition.exec Impl.step {} submittedRun).map
          (fun d =>
            (d.readyState, d.passedStates,
              d.session.map fun s =>
                (s.onReadyStateChange.isSome,
                  (s.findStream 1).isSome))) =
        some (.opened, [.opened], some (true, true)) := by
    decide +kernel
  rcases Option.map_eq_some_iff.mp hEnd with
    ⟨d, hRun, hState⟩
  simp only [Prod.mk.injEq] at hState
  rcases Option.map_eq_some_iff.mp hState.2.2 with
    ⟨s, hSession, hStream⟩
  simp only [Prod.mk.injEq] at hStream
  exact ⟨d, hRun, hState.1, hState.2.1, s, hSession,
    hStream⟩

/- A response with a body and no trailer. -/
def bodyExchange : Exchange where
  blocks := [{ fields := [⟨ascii ":status", ascii "200",
    false⟩] }]
  frames := [{ chunks := [[1], [2]], endStream := true }]

theorem neverGoesBack_body :
    ∃ d, Transition.exec Impl.step {} submittedRun = some d ∧
      d.NeverGoesBack (bodyExchange.callbacks 1) := by
  rcases submittedRun_awaits with ⟨d, hRun, hAwaits⟩
  exact ⟨d, hRun,
    (neverGoesBack_iff bodyExchange d 1 hAwaits _ rfl).mpr
      (.inr rfl)⟩

/- A response with a body and a trailer. -/
def trailerExchange : Exchange where
  blocks := [{ fields := [⟨ascii ":status", ascii "200",
    false⟩] }]
  frames := [{ chunks := [[1]] }]
  trailer := some [⟨ascii "digest", ascii "1", false⟩]

/- The state goes from `Loading` to `HeadersReceived`. -/
theorem trailer_goes_back :
    ∃ d, Transition.exec Impl.step {} submittedRun = some d ∧
      d.AwaitsResponse 1 ∧
      ¬ d.NeverGoesBack (trailerExchange.callbacks 1) := by
  rcases submittedRun_awaits with ⟨d, hRun, hAwaits⟩
  have hStored :
      (Transition.exec Impl.step {} submittedRun).map
          (·.storedStates (trailerExchange.callbacks 1)) =
        some
          [.opened, .opened, .headersReceived,
            .headersReceived, .loading, .loading, .loading,
            .headersReceived, .headersReceived, .done] := by
    decide +kernel
  rw [hRun, Option.map_some, Option.some.injEq] at hStored
  refine ⟨d, hRun, hAwaits, ?_⟩
  intro hNever
  rw [Impl.NeverGoesBack, hStored] at hNever
  exact absurd hNever.1 (by decide)

end Exchange

end Network
