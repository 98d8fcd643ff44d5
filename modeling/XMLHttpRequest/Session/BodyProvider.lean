import XMLHttpRequest.Library.Pipe
import XMLHttpRequest.Session.Operations

/-
  The calls that nghttp2 makes of the data provider of one
  request, when nothing else changes the body.

  Key definitions include:
    * `Network.bodyBefore`
    * `Network.providedChunk`
    * `Network.Provides`

  Key theorems include:
    * `Network.reciveCallback_of_pos`
    * `Network.exists_provides`
-/

------------------------------------------------------------
-- One Call
------------------------------------------------------------

namespace Network

/- The bytes that are left after a call that asks for some. -/
theorem reciveCallback_of_pos
    (body : Bytes)
    {length : Nat}
    (hPositive : 0 < length) :
    reciveCallback body length =
      (body.take length, body.drop length, body.isEmpty) := by
  cases body with
  | nil => simp [reciveCallback]
  | cons byte body =>
      simp only [reciveCallback, List.length_cons,
        gt_iff_lt, lt_min_iff, Nat.zero_lt_succ, hPositive,
        and_self, if_true, List.isEmpty_cons]
      rcases Nat.le_total (body.length + 1) length with
        hAll | hSome
      · rw [Nat.min_eq_left hAll,
          List.take_of_length_le (by simp),
          List.take_of_length_le (by simpa using hAll),
          List.drop_of_length_le (by simp),
          List.drop_of_length_le (by simpa using hAll)]
      · rw [Nat.min_eq_right hSome]

end Network

------------------------------------------------------------
-- Calls
------------------------------------------------------------

namespace Network

/- The body that a call finds, by the lengths asked for. -/
def bodyBefore
    (body : Bytes)
    (lengths : Nat → Nat) : Nat → Bytes
  | 0 => body
  | call + 1 =>
      (reciveCallback (bodyBefore body lengths call)
        (lengths call)).2.1

/- What a call copies, and whether it sets the flag. -/
def providedChunk
    (body : Bytes)
    (lengths : Nat → Nat)
    (call : Nat) : Bytes :=
  (reciveCallback (bodyBefore body lengths call)
    (lengths call)).1

def providedEof
    (body : Bytes)
    (lengths : Nat → Nat)
    (call : Nat) : Bool :=
  (reciveCallback (bodyBefore body lengths call)
    (lengths call)).2.2

/- What the calls up to one of them have copied. -/
def providedBefore
    (body : Bytes)
    (lengths : Nat → Nat)
    (call : Nat) : Bytes :=
  (List.range call).flatMap (providedChunk body lengths)

/-
  The call `last` is the first to set the flag.  It copies
  nothing, the calls before it have copied the body, and there
  are at most as many of them as there are bytes.
-/
structure Provides
    (body : Bytes)
    (lengths : Nat → Nat)
    (last : Nat) : Prop where
  flagged : providedEof body lengths last = true
  first :
    ∀ call < last, providedEof body lengths call = false
  nothing : providedChunk body lengths last = []
  whole : providedBefore body lengths last = body
  complete : providedBefore body lengths (last + 1) = body
  calls : last + 1 ≤ body.length + 1

end Network

------------------------------------------------------------
-- The Body on Its Way
------------------------------------------------------------

namespace Network

variable {body : Bytes}
variable {lengths : Nat → Nat}

theorem providedBefore_succ (call : Nat) :
    providedBefore body lengths (call + 1) =
      providedBefore body lengths call ++
        providedChunk body lengths call := by
  rw [providedBefore, List.range_succ, List.flatMap_append,
    List.flatMap_singleton]
  rfl

/- The calls let the body out of a pipe. -/
theorem provided_eq_popTimes
    (body : Bytes)
    (hPositive : ∀ call, 0 < lengths call)
    (call : Nat) :
    providedBefore body lengths call =
        ((Pipe.full body).popTimes lengths call).left ∧
      bodyBefore body lengths call =
        ((Pipe.full body).popTimes lengths call).queued := by
  induction call with
  | zero => exact ⟨rfl, rfl⟩
  | succ call ih =>
      have hCall :=
        reciveCallback_of_pos (bodyBefore body lengths call)
          (hPositive call)
      rw [providedBefore_succ, providedChunk, bodyBefore,
        hCall, ih.1, ih.2]
      exact ⟨rfl, rfl⟩

theorem providedEof_iff
    (hPositive : ∀ call, 0 < lengths call)
    (call : Nat) :
    providedEof body lengths call = true ↔
      bodyBefore body lengths call = [] := by
  rw [providedEof, reciveCallback_of_pos _ (hPositive call)]
  exact List.isEmpty_iff

end Network

------------------------------------------------------------
-- The First Flag
------------------------------------------------------------

namespace Network

/-
  Whatever positive lengths are asked for, no call copies more
  than its length, and some call is the first to set the flag,
  when the body has been copied.
-/
theorem exists_provides
    (body : Bytes)
    (lengths : Nat → Nat)
    (hPositive : ∀ call, 0 < lengths call) :
    (∀ call,
      (providedChunk body lengths call).length ≤
        lengths call) ∧
      ∃ last, Provides body lengths last := by
  have hChunk :
      ∀ call,
        providedChunk body lengths call =
          (bodyBefore body lengths call).take
            (lengths call) := by
    intro call
    rw [providedChunk,
      reciveCallback_of_pos _ (hPositive call)]
  constructor
  · intro call
    rw [hChunk call]
    exact List.length_take_le _ _
  · rcases Pipe.exists_drained (Pipe.full body) hPositive with
      ⟨last, hCalls, hQueued, hLeft, hFirst⟩
    have hPipe := provided_eq_popTimes body hPositive
    have hEmpty : bodyBefore body lengths last = [] := by
      rw [(hPipe last).2, hQueued]
    have hNothing : providedChunk body lengths last = [] := by
      rw [hChunk last, hEmpty, List.take_nil]
    have hWhole : providedBefore body lengths last = body := by
      rw [(hPipe last).1, hLeft]
      rfl
    refine ⟨last,
      { flagged :=
          (providedEof_iff hPositive last).mpr hEmpty
        first := fun call hBefore => ?_
        nothing := hNothing
        whole := hWhole
        complete := ?_
        calls := Nat.succ_le_succ hCalls }⟩
    · apply Bool.eq_false_iff.mpr
      intro hFlag
      have hNone := (providedEof_iff hPositive call).mp hFlag
      rw [(hPipe call).2] at hNone
      exact hFirst call hBefore hNone
    · rw [providedBefore_succ, hWhole, hNothing,
        List.append_nil]

/- Five bytes, asked for by two at a time. -/
theorem exists_provides_two :
    (∀ call,
      (providedChunk [1, 2, 3, 4, 5] (fun _ => 2)
        call).length ≤ 2) ∧
      ∃ last, Provides [1, 2, 3, 4, 5] (fun _ => 2) last :=
  exists_provides [1, 2, 3, 4, 5] (fun _ => 2)
    (fun _ => by decide)

end Network
