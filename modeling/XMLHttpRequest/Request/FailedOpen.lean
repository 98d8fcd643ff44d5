import XMLHttpRequest.Request.System

/-
  What an open that fails leaves behind.

  The mode is stored before the URI is parsed, and the target
  before it is known whether the request is opened already.

  Key definitions include:
    * `Network.OpenCall`
    * `Network.Impl.Unchanged`
    * `Network.OpenCall.Repeats`

  Key theorems include:
    * `Network.Impl.openWith_of_fails`
    * `Network.Impl.prepare_unchanged_iff`
    * `Network.OpenCall.failed_unchanged_iff`
-/

------------------------------------------------------------
-- Calls of Open
------------------------------------------------------------

namespace Network

/- A call of an overload of `open` with arguments. -/
inductive OpenCall
  | openWith (method uri : Bytes) (async : Bool)
  | openAuth
      (method uri : Bytes)
      (async : Bool)
      (user password : Bytes)
  deriving DecidableEq, Repr

namespace OpenCall

def run
    (d : Impl)
    (setup : Setup) : OpenCall → Impl
  | openWith method uri async =>
      d.openWith method uri async setup
  | openAuth method uri async user password =>
      d.openAuth method uri async user password setup

def uri : OpenCall → Bytes
  | openWith _ uri _ => uri
  | openAuth _ uri _ _ _ => uri

/- The URI is rejected, or the request is opened already. -/
def Fails (d : Impl) (call : OpenCall) : Prop :=
  proccessUri call.uri = none ∨ .opened ≤ d.readyState

/-
  A call without credentials that names the mode of the
  request, and its method and target if the URI is accepted.
-/
def Repeats (d : Impl) : OpenCall → Prop
  | openWith method uri async =>
      async = d.isAsync ∧
        ∀ elements, proccessUri uri = some elements →
          toUpper method = d.method ∧
            elements.addr = d.addr ∧
            elements.port = d.port ∧
            elements.protocol = d.proto ∧
            elements.urn = d.urn
  | openAuth _ _ _ _ _ => False

end OpenCall

namespace Impl

/- What a failed open is to leave alone. -/
structure Unchanged (d d' : Impl) : Prop where
  method : d'.method = d.method
  addr : d'.addr = d.addr
  port : d'.port = d.port
  proto : d'.proto = d.proto
  urn : d'.urn = d.urn
  isAsync : d'.isAsync = d.isAsync
  header : d'.header = d.header
  readyState : d'.readyState = d.readyState
  timer : d'.timer = d.timer

end Impl

end Network

------------------------------------------------------------
-- Failed Opens
------------------------------------------------------------

namespace Network

namespace Impl

variable {d : Impl}

theorem prepare_readyState
    (method uri : Bytes)
    (async : Bool) :
    (d.prepare method uri async).1.readyState =
      d.readyState := by
  unfold prepare
  cases proccessUri uri <;> rfl

theorem prepare_header
    (method uri : Bytes)
    (async : Bool) :
    (d.prepare method uri async).1.header = d.header := by
  unfold prepare
  cases proccessUri uri <;> rfl

/- An open that fails has done no more than prepare. -/
theorem openWith_of_fails
    {method uri : Bytes}
    {async : Bool}
    (hFails :
      proccessUri uri = none ∨ .opened ≤ d.readyState)
    (setup : Setup) :
    d.openWith method uri async setup =
      (d.prepare method uri async).1 := by
  unfold openWith
  split
  · rename_i prepared ok hPrepared
    cases ok with
    | false => rw [hPrepared, if_neg Bool.false_ne_true]
    | true =>
        have hOpened : .opened ≤ d.readyState := by
          apply hFails.resolve_left
          intro hRejected
          simp [prepare, hRejected] at hPrepared
        have hState :=
          d.prepare_readyState method uri async
        rw [hPrepared] at hState ⊢
        rw [if_pos rfl]
        unfold openPlain
        rw [if_pos (hState.symm ▸ hOpened)]

/- What prepare stores is what the request has already. -/
theorem prepare_unchanged_iff
    (method uri : Bytes)
    (async : Bool) :
    Unchanged d (d.prepare method uri async).1 ↔
      (OpenCall.openWith method uri async).Repeats d := by
  unfold prepare OpenCall.Repeats
  cases hUri : proccessUri uri with
  | none =>
      constructor
      · intro hSame
        exact ⟨hSame.isAsync, fun elements hSome => by
          rw [hUri] at hSome
          cases hSome⟩
      · rintro ⟨hAsync, _⟩
        exact ⟨rfl, rfl, rfl, rfl, rfl, hAsync, rfl, rfl,
          rfl⟩
  | some elements =>
      constructor
      · intro hSame
        refine ⟨hSame.isAsync, ?_⟩
        intro stored hStored
        rw [hUri, Option.some.injEq] at hStored
        subst hStored
        exact ⟨hSame.method, hSame.addr, hSame.port,
          hSame.proto, hSame.urn⟩
      · rintro ⟨hAsync, hStored⟩
        rcases hStored elements hUri with
          ⟨hMethod, hAddr, hPort, hProto, hUrn⟩
        exact ⟨hMethod, hAddr, hPort, hProto, hUrn, hAsync,
          rfl, rfl, rfl⟩

/- A header field is added to those that are there. -/
theorem setRequestHeader_header_ne
    (name value : Bytes) :
    (d.setRequestHeader name value).header ≠ d.header := by
  intro hSame
  have hValues :=
    congrArg (fun header => (header.valuesOf name).length)
      hSame
  simp only [setRequestHeader,
    OrderedMultimap.valuesOf_emplace_self,
    List.length_append, List.length_singleton] at hValues
  omega

end Impl

/-
  An open that fails changes nothing exactly when it carries
  no credentials and repeats what the request has stored.
-/
theorem OpenCall.failed_unchanged_iff
    (d : Impl)
    (setup : Setup)
    (call : OpenCall) :
    (call.Fails d → Impl.Unchanged d (call.run d setup)) ↔
      (call.Fails d → call.Repeats d) := by
  cases call with
  | openWith method uri async =>
      apply imp_congr_right
      intro hFails
      simp only [run]
      rw [Impl.openWith_of_fails (by exact hFails)]
      exact Impl.prepare_unchanged_iff method uri async
  | openAuth method uri async user password =>
      apply imp_congr_right
      intro hFails
      refine iff_of_false ?_ id
      intro hSame
      have hHeader := hSame.header
      simp only [run, Impl.openAuth] at hHeader
      rw [Impl.openWith_of_fails (by exact hFails)]
        at hHeader
      rw [← d.prepare_header method uri async] at hHeader
      exact Impl.setRequestHeader_header_ne _ _ hHeader

/- A request for `a.com` that has been opened. -/
def openedRequest : Impl :=
  ({} : Impl).openWith (ascii "GET")
    (ascii "https://a.com/") false Impl.freshSetup

/- A second open that fails redirects the request. -/
theorem second_open_redirects :
    ¬ ((OpenCall.openWith (ascii "GET")
          (ascii "https://b.com/") false).Fails
            openedRequest →
        Impl.Unchanged openedRequest
          ((OpenCall.openWith (ascii "GET")
            (ascii "https://b.com/") false).run
              openedRequest Impl.freshSetup)) := by
  intro hUnchanged
  have hOpened : .opened ≤ openedRequest.readyState := by
    decide +kernel
  have hAddr := (hUnchanged (.inr hOpened)).addr
  exact absurd hAddr (by decide +kernel)

end Network
