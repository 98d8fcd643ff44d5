import Mathlib.Data.List.Basic
import Mathlib.Data.Nat.Find

/-
  A pipe: what has entered it has left it in order, except
  for what is still queued.

  Key definitions include:
    * `Pipe`
    * `Pipe.push`
    * `Pipe.pop`
    * `Pipe.popTimes`

  Key theorems include:
    * `Pipe.left_isPrefix`
    * `Pipe.left_eq_entered`
    * `Pipe.exists_drained`
-/

------------------------------------------------------------
-- Pipes
------------------------------------------------------------

/- The history of a pipe, with nothing lost on the way. -/
@[ext] structure Pipe (α : Type*) where
  entered : List α
  left : List α
  queued : List α
  balanced : entered = left ++ queued

namespace Pipe

variable {α : Type*}

/- Let items in at the end of the queue. -/
def push
    (pipe : Pipe α)
    (items : List α) : Pipe α where
  entered := pipe.entered ++ items
  left := pipe.left
  queued := pipe.queued ++ items
  balanced := by
    rw [pipe.balanced, List.append_assoc]

/- Let the first `n` queued items out. -/
def pop
    (pipe : Pipe α)
    (n : Nat) : Pipe α where
  entered := pipe.entered
  left := pipe.left ++ pipe.queued.take n
  queued := pipe.queued.drop n
  balanced := by
    rw [pipe.balanced, List.append_assoc,
      List.take_append_drop]

variable (pipe : Pipe α)

@[simp] theorem push_entered (items : List α) :
    (pipe.push items).entered = pipe.entered ++ items := rfl

@[simp] theorem push_left (items : List α) :
    (pipe.push items).left = pipe.left := rfl

@[simp] theorem push_queued (items : List α) :
    (pipe.push items).queued = pipe.queued ++ items := rfl

@[simp] theorem pop_entered (n : Nat) :
    (pipe.pop n).entered = pipe.entered := rfl

@[simp] theorem pop_left (n : Nat) :
    (pipe.pop n).left =
      pipe.left ++ pipe.queued.take n := rfl

@[simp] theorem pop_queued (n : Nat) :
    (pipe.pop n).queued = pipe.queued.drop n := rfl

/- What has left is what entered first. -/
theorem left_isPrefix : pipe.left <+: pipe.entered := by
  rw [pipe.balanced]
  exact List.prefix_append pipe.left pipe.queued

/- With nothing queued everything has left. -/
theorem left_eq_entered
    (hQueued : pipe.queued = []) :
    pipe.left = pipe.entered := by
  rw [pipe.balanced, hQueued, List.append_nil]

end Pipe

------------------------------------------------------------
-- Draining
------------------------------------------------------------

namespace Pipe

variable {α : Type*}

/- Nothing has left yet. -/
def full (items : List α) : Pipe α where
  entered := items
  left := []
  queued := items
  balanced := rfl

/- Let items out `n` times, as many as `counts` says. -/
def popTimes
    (pipe : Pipe α)
    (counts : Nat → Nat) : Nat → Pipe α
  | 0 => pipe
  | n + 1 => (pipe.popTimes counts n).pop (counts n)

variable {pipe : Pipe α}
variable {counts : Nat → Nat}

theorem popTimes_entered (n : Nat) :
    (pipe.popTimes counts n).entered = pipe.entered := by
  induction n with
  | zero => rfl
  | succ n ih => exact ih

/- Something leaves each time, as long as there is any. -/
theorem length_popTimes_le
    (pipe : Pipe α)
    (hPositive : ∀ n, 0 < counts n)
    (n : Nat) :
    (pipe.popTimes counts n).queued.length ≤
      pipe.queued.length - n := by
  induction n with
  | zero => exact Nat.le_refl _
  | succ n ih =>
      have hCount := hPositive n
      rw [popTimes, pop_queued, List.length_drop]
      omega

/-
  The queue is empty for the first time after at most as many
  times as there were items, and then all of them have left.
-/
theorem exists_drained
    (pipe : Pipe α)
    (hPositive : ∀ n, 0 < counts n) :
    ∃ last ≤ pipe.queued.length,
      (pipe.popTimes counts last).queued = [] ∧
        (pipe.popTimes counts last).left = pipe.entered ∧
        ∀ n < last, (pipe.popTimes counts n).queued ≠ [] := by
  classical
  have hAll :
      (pipe.popTimes counts pipe.queued.length).queued = [] := by
    have hLength :=
      length_popTimes_le pipe hPositive pipe.queued.length
    apply List.length_eq_zero_iff.mp
    omega
  have hSome :
      ∃ n, (pipe.popTimes counts n).queued = [] := ⟨_, hAll⟩
  refine ⟨Nat.find hSome, Nat.find_min' hSome hAll,
    Nat.find_spec hSome, ?_, fun n hBefore =>
      Nat.find_min hSome hBefore⟩
  rw [left_eq_entered _ (Nat.find_spec hSome),
    popTimes_entered]

end Pipe
