import XMLHttpRequest.Session.Frames

/-
  Which steps of a session give nghttp2 a request.

  Key definitions include:
    * `Network.HttpTlsSession.SameRequests`

  Key theorems include:
    * `Network.HttpTlsSession.step_sameRequests`
-/

------------------------------------------------------------
-- Writes
------------------------------------------------------------

namespace Network

namespace HttpTlsSession

/- nghttp2 has been given the same requests. -/
def SameRequests (s s' : HttpTlsSession) : Prop :=
  s'.nghttp2.requests = s.nghttp2.requests

variable {s s' s'' : HttpTlsSession}

theorem SameRequests.trans
    (hFirst : SameRequests s s')
    (hSecond : SameRequests s' s'') :
    SameRequests s s'' :=
  Eq.trans hSecond hFirst

theorem Undisturbed.sameRequests
    (hUndisturbed : Undisturbed s s') :
    SameRequests s s' := by
  unfold SameRequests
  rw [hUndisturbed.nghttp2]

theorem sameRequests_writeOrder :
    WriteOrder SameRequests where
  refl _ := rfl
  trans := SameRequests.trans
  callback s c := (s.runCallback_undisturbed c).sameRequests
  stop s := s.stop_undisturbed.sameRequests
  buffers := by
    rintro s _ ⟨_, _, _, _, _, _, rfl⟩
    rfl

theorem write_sameRequests
    {sends : List Send}
    (hWrite : s.write sends = some s') :
    SameRequests s s' :=
  sameRequests_writeOrder.write (fun _ => rfl) hWrite

end HttpTlsSession

end Network

------------------------------------------------------------
-- Steps
------------------------------------------------------------

namespace Network

namespace HttpTlsSession

variable {s s' : HttpTlsSession}

theorem writeHandler_sameRequests
    {ec : ErrorCode}
    {n : Nat}
    {sends : List Send}
    (hHandler : s.writeHandler ec n sends = some s') :
    SameRequests s s' := by
  cases writeHandled_of_some hHandler with
  | stopped _ => exact s.stop_undisturbed.sameRequests
  | cleared _ _ hWrite =>
      have hWritten := write_sameRequests hWrite
      exact hWritten

theorem readHandler_sameRequests
    {ec : ErrorCode}
    {n : Nat}
    {recv : Recv}
    (hHandler : s.readHandler ec n recv = some s') :
    SameRequests s s' := by
  have hHeld :
      SameRequests s (s.hold.upcalls recv.upcalls) :=
    (s.hold.upcalls_undisturbed recv.upcalls).sameRequests
  cases readHandled_of_some hHandler with
  | nothing _ => rfl
  | failed _ _ => exact s.stop_undisturbed.sameRequests
  | refused _ _ _ =>
      exact hHeld.trans (stop_undisturbed _).sameRequests
  | ended _ _ hWrite _ =>
      have hWritten := write_sameRequests hWrite
      exact (hHeld.trans hWritten).trans
        (stop_undisturbed _).sameRequests
  | goesOn _ _ hWrite _ =>
      have hWritten := write_sameRequests hWrite
      apply (hHeld.trans hWritten).trans
      unfold read
      split <;> rfl

theorem pingHandler_sameRequests
    {ec : ErrorCode}
    {sends : List Send}
    (hHandler : s.pingHandler ec sends = some s') :
    SameRequests s s' := by
  have hSubmitted : SameRequests s (s.submitPing ec) := by
    unfold submitPing
    split <;> rfl
  rcases Option.map_eq_some_iff.mp hHandler with
    ⟨written, hWrite, rfl⟩
  have hWritten := write_sameRequests hWrite
  exact hSubmitted.trans hWritten

theorem onSocketConnected_sameRequests
    {connection : Connection}
    (hConnected : s.onSocketConnected connection = some s') :
    SameRequests s s' := by
  cases socketConnected_of_some hConnected with
  | greets _ hWrite =>
      have hWritten := write_sameRequests hWrite
      apply hWritten.trans
      unfold read
      split <;> rfl
  | again _ => rfl

theorem startConnect_sameRequests (connection : Connection) :
    SameRequests s (s.startConnect connection).1 := by
  generalize hStart : (s.startConnect connection).1 = started
  cases connectStarted_of_eq hStart with
  | running _ => rfl
  | closed _ => rfl
  | failed _ =>
      exact (stop_undisturbed
        { s with sock := s.sock.close }).sameRequests

theorem startResolve_sameRequests
    {connection : Connection}
    {ok : Bool}
    (hResolve : s.startResolve connection = some (s', ok)) :
    SameRequests s s' := by
  have hConnect :=
    startConnect_sameRequests (s := s) connection
  cases resolveStarted_of_some hResolve with
  | unresolved _ => exact s.stop_undisturbed.sameRequests
  | unconnected _ _ =>
      exact hConnect.trans (stop_undisturbed _).sameRequests
  | connected _ _ hConnected =>
      refine (hConnect.trans
        (onSocketConnected_sameRequests hConnected)).trans ?_
      unfold invokeOnStart
      split <;> rfl

/- Only a submission gives nghttp2 a request. -/
theorem step_sameRequests
    {event : SessionEvent}
    (hOther :
      ∀ arguments submission,
        event ≠ .submit arguments submission)
    (hStep : s.step event = some s') :
    SameRequests s s' := by
  cases step_handled hStep with
  | idle event hSame => exact hSame ▸ rfl
  | startResolve connection ok hResolve =>
      exact startResolve_sameRequests hResolve
  | readDone ec n recv reads hReads hHandler =>
      have hSame := readHandler_sameRequests hHandler
      exact hSame
  | readCancelled recv reads hReads hSame => exact hSame ▸ rfl
  | writeDone ec n sends data writes hWrites hHandler =>
      have hSame := writeHandler_sameRequests hHandler
      exact hSame
  | writeCancelled sends writes hSame =>
      exact hSame ▸ (stop_undisturbed _).sameRequests
  | pingExpired sends ping hHandler =>
      have hSame := pingHandler_sameRequests hHandler
      exact hSame
  | pingCancelled sends ping hHandler =>
      have hSame := pingHandler_sameRequests hHandler
      exact hSame
  | write sends hWrite => exact write_sameRequests hWrite
  | submit arguments submission result hSubmit =>
      exact absurd rfl (hOther arguments submission)
  | startPing hSame => exact hSame ▸ rfl
  | cancelPing hSame => exact hSame ▸ rfl
  | stop hSame =>
      exact hSame ▸ s.stop_undisturbed.sameRequests

end HttpTlsSession

end Network
