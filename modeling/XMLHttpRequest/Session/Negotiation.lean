import XMLHttpRequest.Session.Locking

/-
  Which connection attempts start a session.

  Key definitions include:
    * `Network.Connection.accepted`
    * `Network.HttpTlsSession.Untouched`

  Key theorems include:
    * `Network.HttpTlsSession.startResolve_failed`
    * `Network.HttpTlsSession.startResolve_negotiated_iff`
-/

------------------------------------------------------------
-- Refused Connections
------------------------------------------------------------

namespace Network

/- The peer has agreed to HTTP/2. -/
def Connection.negotiated (connection : Connection) : Bool :=
  tlsH2Negotiated connection.npn connection.alpn

/- The attempt succeeds and the peer has agreed to HTTP/2. -/
def Connection.accepted (connection : Connection) : Bool :=
  connection.succeeds && connection.negotiated

namespace HttpTlsSession

/-
  The session is stopped, and nothing was submitted, written,
  read or called.
-/
structure Untouched (s s' : HttpTlsSession) : Prop where
  stopped : s'.stopped = true
  nghttp2 : s'.nghttp2 = s.nghttp2
  accepted : s'.sock.accepted = s.sock.accepted
  writes : s'.sock.writes.Sublist s.sock.writes
  reads : s'.sock.reads ≤ s.sock.reads
  log : s'.log = s.log

/- The attempt starts the session only if it is accepted. -/
def StartsNegotiated
    (s : HttpTlsSession)
    (connection : Connection) : Prop :=
  ∃ s', (s.startResolve connection).map (·.1) = some s' ∧
    (connection.accepted = true ∨ Untouched s s')

variable {s : HttpTlsSession}

theorem Untouched.refl
    (hStopped : s.stopped = true) :
    Untouched s s where
  stopped := hStopped
  nghttp2 := rfl
  accepted := rfl
  writes := List.Sublist.refl _
  reads := le_rfl
  log := rfl

/- Closing the socket of a stopped session starts nothing. -/
theorem Untouched.close
    (hStopped : s.stopped = true) :
    Untouched s { s with sock := s.sock.close } where
  stopped := hStopped
  nghttp2 := rfl
  accepted := rfl
  writes := List.nil_sublist _
  reads := Nat.zero_le _
  log := rfl

/- A failed attempt leaves a stopped session as it was. -/
theorem startResolve_failed
    (hStopped : s.stopped = true)
    {connection : Connection}
    (hFails : connection.succeeds = false) :
    ∃ s', (s.startResolve connection).map (·.1) = some s' ∧
      Untouched s s' := by
  rw [s.startResolve_of_stopped hStopped, hFails]
  split
  · exact ⟨s, rfl, .refl hStopped⟩
  · exact ⟨_, rfl, .close hStopped⟩

theorem Connection.resolve_of_succeeds
    {connection : Connection}
    (hSucceeds : connection.succeeds = true) :
    connection.resolve.failed = false := by
  simp only [Connection.succeeds, Bool.and_eq_true,
    Bool.not_eq_true'] at hSucceeds
  exact hSucceeds.1.1

/-
  An attempt that succeeds starts the session, or has at
  least submitted settings for it.
-/
theorem startResolve_succeeded
    (hStopped : s.stopped = true)
    {connection : Connection}
    (hSucceeds : connection.succeeds = true)
    {s' : HttpTlsSession}
    (hStep :
      (s.startResolve connection).map (·.1) = some s') :
    ¬ Untouched s s' := by
  have hInvoke :
      ∀ s : HttpTlsSession,
        s.invokeOnStart.stopped = s.stopped ∧
          s.invokeOnStart.nghttp2 = s.nghttp2 := by
    intro s
    unfold invokeOnStart
    split <;> exact ⟨rfl, rfl⟩
  intro hUntouched
  rw [s.startResolve_of_stopped hStopped,
    Connection.resolve_of_succeeds hSucceeds, hSucceeds,
    onSocketConnected_eq] at hStep
  simp only [Bool.false_eq_true, if_false, if_true] at hStep
  split at hStep
  · rw [Option.map_map] at hStep
    rcases Option.map_eq_some_iff.mp hStep with
      ⟨written, hWrite, rfl⟩
    have hSettings := (write_kept _ hWrite).settings
    have hRead : written.read.nghttp2 = written.nghttp2 := by
      unfold read
      split <;> rfl
    have hSame := hUntouched.nghttp2
    simp only [Function.comp_apply, (hInvoke _).2] at hSame
    change written.read.nghttp2 = s.nghttp2 at hSame
    rw [hRead] at hSame
    rw [hSame] at hSettings
    exact absurd hSettings (by
      simp [greeting, sendClientConnectionHeader])
  · rw [Option.map_some, Option.some.injEq] at hStep
    have hEnd := hUntouched.stopped
    rw [← hStep, (hInvoke _).1] at hEnd
    cases hEnd

end HttpTlsSession

end Network

------------------------------------------------------------
-- Negotiated Connections
------------------------------------------------------------

namespace Network

namespace HttpTlsSession

/-
  An attempt on a stopped session starts it only for a peer
  that has agreed to HTTP/2, unless the attempt succeeds and
  the peer has not agreed.
-/
theorem startResolve_negotiated_iff
    (s : HttpTlsSession)
    (hStopped : s.stopped = true)
    (hFree : s.insideCb = false)
    (connection : Connection) :
    s.StartsNegotiated connection ↔
      (connection.succeeds = true →
        connection.negotiated = true) := by
  cases hSucceeds : connection.succeeds with
  | false =>
      have hFailed := startResolve_failed hStopped hSucceeds
      refine iff_of_true ?_ (by simp)
      rcases hFailed with ⟨s', hStep, hUntouched⟩
      exact ⟨s', hStep, .inr hUntouched⟩
  | true =>
      constructor
      · rintro ⟨s', hStep, hAccepted | hUntouched⟩ _
        · simpa [Connection.accepted, hSucceeds] using
            hAccepted
        · exact absurd hUntouched
            (startResolve_succeeded hStopped hSucceeds
              hStep)
      · intro hNegotiated
        rcases startResolve_frees hFree connection with
          ⟨s', hStep, _⟩
        refine ⟨s', hStep, .inl ?_⟩
        simp [Connection.accepted, hSucceeds,
          hNegotiated rfl]

theorem startResolve_negotiated_h2 :
    (create (ascii "a") (ascii "443")
        zeroGarbage).StartsNegotiated h2Connection :=
  (startResolve_negotiated_iff
    (create (ascii "a") (ascii "443") zeroGarbage) rfl rfl
    h2Connection).mpr (fun _ => by decide)

/- A peer that has chosen HTTP/1.1. -/
def http1Connection : Connection :=
  { h2Connection with alpn := some (ascii "http/1.1") }

/- The session is started for it all the same. -/
theorem startResolve_http1_started :
    ¬ (create (ascii "a") (ascii "443")
        zeroGarbage).StartsNegotiated http1Connection := by
  rintro ⟨s', hStep, hAccepted | hUntouched⟩
  · exact absurd hAccepted (by decide)
  · have hEval :
        ((create (ascii "a") (ascii "443")
            zeroGarbage).startResolve
          http1Connection).map (·.1.stopped) =
            some false := by
      decide +kernel
    rcases Option.map_eq_some_iff.mp hStep with
      ⟨result, hResult, rfl⟩
    rw [hResult, Option.map_some, Option.some.injEq,
      hUntouched.stopped] at hEval
    cases hEval

end HttpTlsSession

end Network
