import XMLHttpRequest.Session.Queued
import XMLHttpRequest.Session.StreamView

/-
  The closures of a session and the log of their invocations.

  A step keeps the closures, and all it invokes are closures
  that are installed.  That of the stop callback is none of
  them.

  Key definitions include:
    * `Network.HttpTlsSession.Installed`
    * `Network.HttpTlsSession.Extends`

  Key theorems include:
    * `Network.CallbackState.apply_installed`
    * `Network.HttpTlsSession.passes_extends`
    * `Network.HttpTlsSession.stepQueued_extends`
-/

------------------------------------------------------------
-- Installed Closures
------------------------------------------------------------

namespace Network

namespace CallbackState

variable (s : CallbackState)

/- A call of a closure that is installed. -/
def Installed : Call → Prop
  | .stateChange closure _ =>
      s.onReadyStateChange = some closure
  | .ready closure _ _ _ => s.onReadyCb = some closure

theorem callStateChange_installed
    (state : ReadyState) :
    ∀ call ∈ s.callStateChange state, s.Installed call := by
  unfold callStateChange
  split
  · exact nofun
  · rename_i closure hClosure
    intro call hCall
    rw [List.mem_singleton] at hCall
    exact hCall ▸ hClosure

theorem callReady_installed
    (id : StreamId)
    (strm : Stream) :
    ∀ call ∈ s.callReady id strm, s.Installed call := by
  unfold callReady
  split
  · exact nofun
  · rename_i closure hClosure
    intro call hCall
    rw [List.mem_singleton] at hCall
    exact hCall ▸ hClosure

theorem apply_installed (c : Callback) :
    ∀ call ∈ (s.apply c).2, s.Installed call := by
  cases c with
  | beginHeaders frame => exact List.forall_mem_nil _
  | header frame name value noIndex =>
      simp only [apply, onHeaderCallback]
      split
      · exact s.callStateChange_installed _
      · exact List.forall_mem_nil _
      · exact List.forall_mem_nil _
  | frameRecv frame => exact List.forall_mem_nil _
  | dataChunkRecv id data =>
      exact s.callStateChange_installed _
  | streamClose id =>
      simp only [apply, onStreamCloseCallback]
      split
      · rename_i strm _
        intro call hCall
        rcases List.mem_append.mp hCall with hDone | hReady
        · exact s.callStateChange_installed _ call hDone
        · exact s.callReady_installed id strm call hReady
      · exact List.forall_mem_nil _
  | beforeFrameSend frame => exact List.forall_mem_nil _

end CallbackState

namespace HttpTlsSession

/-
  An invocation of a closure that is installed.  That of the
  stop callback is not invoked.
-/
def Installed (s : HttpTlsSession) : Invocation → Prop
  | .call call => s.toCallbackState.Installed call
  | .started closure => s.onStartCb = some closure
  | .stopped _ => False

/-
  The closures are the same, and those that were invoked are
  installed.
-/
structure Extends (s s' : HttpTlsSession) : Prop where
  onReadyCb : s'.onReadyCb = s.onReadyCb
  onReadyStateChange :
    s'.onReadyStateChange = s.onReadyStateChange
  onStartCb : s'.onStartCb = s.onStartCb
  onStopCb : s'.onStopCb = s.onStopCb
  log :
    ∃ entries, s'.log = s.log ++ entries ∧
      ∀ entry ∈ entries, s.Installed entry

variable {s s' : HttpTlsSession}

theorem SameFace.extends
    (hSame : SameFace s s') :
    Extends s s' where
  onReadyCb := by rw [hSame.callbackState]
  onReadyStateChange := by rw [hSame.callbackState]
  onStartCb := hSame.onStartCb
  onStopCb := hSame.onStopCb
  log := ⟨[], by rw [hSame.log, List.append_nil], nofun⟩

namespace Extends

protected theorem refl (s : HttpTlsSession) :
    Extends s s :=
  ⟨rfl, rfl, rfl, rfl, [], (List.append_nil _).symm, nofun⟩

/- What is installed later was installed before. -/
theorem installed
    (hExtends : Extends s s')
    {entry : Invocation}
    (hInstalled : s'.Installed entry) :
    s.Installed entry := by
  cases entry with
  | call call =>
      cases call with
      | stateChange closure state =>
          exact hExtends.onReadyStateChange.symm.trans
            hInstalled
      | ready closure id rq rp =>
          exact hExtends.onReadyCb.symm.trans hInstalled
  | started closure =>
      exact hExtends.onStartCb.symm.trans hInstalled
  | stopped closure => exact hInstalled

protected theorem trans
    {s'' : HttpTlsSession}
    (hFirst : Extends s s')
    (hSecond : Extends s' s'') :
    Extends s s'' where
  onReadyCb := hSecond.onReadyCb.trans hFirst.onReadyCb
  onReadyStateChange :=
    hSecond.onReadyStateChange.trans
      hFirst.onReadyStateChange
  onStartCb := hSecond.onStartCb.trans hFirst.onStartCb
  onStopCb := hSecond.onStopCb.trans hFirst.onStopCb
  log := by
    rcases hFirst.log with ⟨first, hLog, hInstalled⟩
    rcases hSecond.log with ⟨second, hLater, hAfter⟩
    refine ⟨first ++ second, ?_, ?_⟩
    · rw [hLater, hLog, List.append_assoc]
    · intro entry hEntry
      rcases List.mem_append.mp hEntry with hEntry | hEntry
      · exact hInstalled entry hEntry
      · exact hFirst.installed (hAfter entry hEntry)

end Extends

end HttpTlsSession

end Network

------------------------------------------------------------
-- Steps
------------------------------------------------------------

namespace Network

namespace HttpTlsSession

variable {s s' : HttpTlsSession}
variable {stirs : Bool}
variable {sends : List Send}

theorem runCallback_extends
    (s : HttpTlsSession)
    (c : Callback) :
    Extends s (s.runCallback c) := by
  have hSettings :=
    s.toCallbackState.step_settings (.callback c)
  have hCalled :
      Extends s
        { s with
          toCallbackState := (s.toCallbackState.apply c).1
          log :=
            s.log ++
              (s.toCallbackState.apply c).2.map .call } := by
    refine ⟨hSettings.2.1, hSettings.2.2, rfl, rfl, _, rfl,
      ?_⟩
    intro entry hEntry
    rcases List.mem_map.mp hEntry with ⟨call, hCall, rfl⟩
    exact s.toCallbackState.apply_installed c call hCall
  unfold runCallback
  simp only
  split
  · exact hCalled.trans (stop_sameFace _).extends
  · exact hCalled

theorem extends_writeOrder : WriteOrder Extends where
  refl := .refl
  trans := .trans
  callback := runCallback_extends
  stop s := s.stop_sameFace.extends
  buffers := by
    rintro s _ ⟨_, _, _, _, _, _, rfl⟩
    apply SameFace.extends
    constructor <;> rfl

theorem write_extends
    (hWrite : s.write sends = some s') :
    Extends s s' := by
  refine extends_writeOrder.write ?_ hWrite
  intro s
  apply SameFace.extends
  constructor <;> rfl

theorem invokeOnStart_extends (s : HttpTlsSession) :
    Extends s s.invokeOnStart := by
  unfold invokeOnStart
  split
  · rename_i closure hClosure
    refine ⟨rfl, rfl, rfl, rfl, [.started closure], rfl, ?_⟩
    intro entry hEntry
    rw [List.mem_singleton] at hEntry
    exact hEntry ▸ hClosure
  · exact .refl s

theorem passes_extends
    (hPasses : Passes stirs sends s s') :
    Extends s s' := by
  induction hPasses with
  | refl => exact .refl s
  | tail _ hPass ih =>
      apply ih.trans
      cases hPass with
      | quiet hQuiet _ => exact hQuiet.toSameFace.extends
      | callback c => exact runCallback_extends _ c
      | started => exact invokeOnStart_extends _
      | registered assigned =>
          exact ⟨rfl, rfl, rfl, rfl, [],
            (List.append_nil _).symm, nofun⟩
      | write hWrite => exact write_extends hWrite

theorem writeHandler_extends
    {ec : ErrorCode}
    {n : Nat}
    (hHandler : s.writeHandler ec n sends = some s') :
    Extends s s' := by
  cases writeHandled_of_some hHandler with
  | stopped _ => exact s.stop_sameFace.extends
  | cleared _ _ hWrite =>
      refine .trans ?_ (write_extends hWrite)
      apply SameFace.extends
      constructor <;> rfl

theorem stepQueued_extends
    {event : QueuedEvent}
    (hStep : s.stepQueued event = some s') :
    Extends s s' := by
  cases hCompletes : s.completion? event with
  | none =>
      exact passes_extends
        (stepQueued_passes hCompletes hStep)
  | some ec =>
      rcases stepQueued_of_completion hCompletes with
        ⟨sock, n, _, hHandler⟩
      rw [hHandler] at hStep
      refine .trans ?_ (writeHandler_extends hStep)
      apply SameFace.extends
      constructor <;> rfl

end HttpTlsSession

end Network
