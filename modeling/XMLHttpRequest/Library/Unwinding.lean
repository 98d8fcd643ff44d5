import Mathlib.Data.List.Basic

/-
  Noninterference for event-driven machines whose state is
  shared by independent parties.

  `view k` is what party `k` sees of the state, `concerns k`
  selects the events addressed to it, and `out k` is what an
  event delivers to it.  The unwinding conditions are about
  single events; they give the comparison of a whole run with
  the run in which the other parties do nothing.

  Key definitions include:
    * `Unwinding.run`
    * `Unwinding.trace`
    * `Unwinding.Conditions`

  Key theorems include:
    * `Unwinding.Conditions.trace_eq`
-/

------------------------------------------------------------
-- Machines with Outputs
------------------------------------------------------------

namespace Unwinding

variable {σ ε ο κ ν : Type*}

/- The state after a list of events. -/
def run
    (step : σ → ε → σ)
    (state : σ)
    (events : List ε) : σ :=
  events.foldl step state

/- Everything a list of events delivers, oldest first. -/
def trace
    (step : σ → ε → σ)
    (out : σ → ε → List ο) :
    σ → List ε → List ο
  | _, [] => []
  | state, event :: events =>
      out state event ++
        trace step out (step state event) events

variable {step : σ → ε → σ}
variable {out : σ → ε → List ο}

@[simp] theorem run_nil (state : σ) :
    run step state [] = state := rfl

@[simp] theorem run_cons
    (state : σ)
    (event : ε)
    (events : List ε) :
    run step state (event :: events) =
      run step (step state event) events := rfl

theorem run_append
    (state : σ)
    (first second : List ε) :
    run step state (first ++ second) =
      run step (run step state first) second := by
  simp [run]

@[simp] theorem trace_nil (state : σ) :
    trace step out state [] = [] := rfl

@[simp] theorem trace_cons
    (state : σ)
    (event : ε)
    (events : List ε) :
    trace step out state (event :: events) =
      out state event ++
        trace step out (step state event) events := rfl

theorem trace_append
    (state : σ)
    (first second : List ε) :
    trace step out state (first ++ second) =
      trace step out state first ++
        trace step out (run step state first) second := by
  induction first generalizing state with
  | nil => simp
  | cons event events ih => simp [ih]

end Unwinding

------------------------------------------------------------
-- Unwinding Conditions
------------------------------------------------------------

namespace Unwinding

variable {σ ε ο κ ν : Type*}

/-
  Events not addressed to `k` are invisible to `k`, and what
  an event addressed to `k` does to `k` depends on `k`'s view
  alone.
-/
structure Conditions
    (step : σ → ε → σ)
    (out : κ → σ → ε → List ο)
    (view : κ → σ → ν)
    (concerns : κ → ε → Bool) : Prop where
  silent : ∀ k state event, concerns k event = false →
    view k (step state event) = view k state
  quiet : ∀ k state event, concerns k event = false →
    out k state event = []
  step_congr : ∀ k state state' event,
    view k state = view k state' →
      view k (step state event) = view k (step state' event)
  out_congr : ∀ k state state' event,
    view k state = view k state' →
      out k state event = out k state' event

namespace Conditions

variable {step : σ → ε → σ}
variable {out : κ → σ → ε → List ο}
variable {view : κ → σ → ν}
variable {concerns : κ → ε → Bool}

/- A party receives what it receives in its projected run. -/
theorem trace_eq
    (h : Conditions step out view concerns)
    (k : κ)
    (events : List ε)
    {state state' : σ}
    (hView : view k state = view k state') :
    trace step (out k) state events =
      trace step (out k) state'
        (events.filter (concerns k)) := by
  induction events generalizing state state' with
  | nil => rfl
  | cons event events ih =>
      by_cases hConcerns : concerns k event = true
      · rw [List.filter_cons_of_pos hConcerns]
        simp only [trace_cons]
        rw [h.out_congr k state state' event hView,
          ih (h.step_congr k state state' event hView)]
      · rw [List.filter_cons_of_neg hConcerns]
        have hFalse : concerns k event = false := by
          simpa using hConcerns
        simp only [trace_cons]
        rw [h.quiet k state event hFalse, List.nil_append]
        exact ih
          ((h.silent k state event hFalse).trans hView)

end Conditions

end Unwinding
