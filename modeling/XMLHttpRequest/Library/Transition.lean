import Mathlib.Logic.Basic

/-
  Runs of a partial, event-driven step function.

  A step returns `none` when it never returns to its caller.

  Key definitions include:
    * `Transition.exec`
    * `Transition.Along`

  Key theorems include:
    * `Transition.invariant`
    * `Transition.along_congr`
    * `Transition.along_of_step`
-/

------------------------------------------------------------
-- Runs
------------------------------------------------------------

namespace Transition

variable {σ ε : Type*}

/- Handle a list of events one after another. -/
def exec
    (step : σ → ε → Option σ) :
    σ → List ε → Option σ
  | state, [] => some state
  | state, event :: events =>
      (step state event).bind fun next =>
        exec step next events

/-
  `P` holds of every event handled in a run, together with
  the state in which it is handled.
-/
def Along
    (step : σ → ε → Option σ)
    (P : σ → ε → Prop) :
    σ → List ε → Prop
  | _, [] => True
  | state, event :: events =>
      P state event ∧
        ∀ next, step state event = some next →
          Along step P next events

variable {step : σ → ε → Option σ}

@[simp] theorem exec_nil (state : σ) :
    exec step state [] = some state := rfl

theorem exec_cons_eq_some_iff
    {state final : σ}
    {event : ε}
    {events : List ε} :
    exec step state (event :: events) = some final ↔
      ∃ next, step state event = some next ∧
        exec step next events = some final := by
  simp [exec, Option.bind_eq_some_iff]

theorem exec_append_eq_some_iff
    {state final : σ}
    {first second : List ε} :
    exec step state (first ++ second) = some final ↔
      ∃ middle, exec step state first = some middle ∧
        exec step middle second = some final := by
  induction first generalizing state with
  | nil => simp
  | cons event events ih =>
      simp only [List.cons_append, exec_cons_eq_some_iff, ih]
      constructor
      · rintro ⟨next, hStep, middle, hFirst, hSecond⟩
        exact ⟨middle, ⟨next, hStep, hFirst⟩, hSecond⟩
      · rintro ⟨middle, ⟨next, hStep, hFirst⟩, hSecond⟩
        exact ⟨next, hStep, middle, hFirst, hSecond⟩

@[simp] theorem along_nil
    (P : σ → ε → Prop)
    (state : σ) :
    Along step P state [] := trivial

@[simp] theorem along_cons_iff
    {P : σ → ε → Prop}
    {state : σ}
    {event : ε}
    {events : List ε} :
    Along step P state (event :: events) ↔
      P state event ∧
        ∀ next, step state event = some next →
          Along step P next events := Iff.rfl

theorem along_true (state : σ) (events : List ε) :
    Along step (fun _ _ => True) state events := by
  induction events generalizing state with
  | nil => trivial
  | cons event events ih =>
      exact ⟨trivial, fun next _ => ih next⟩

/- A run goes on from where it has come to. -/
theorem Along.append
    {P : σ → ε → Prop}
    {state : σ}
    {first second : List ε}
    (hFirst : Along step P state first)
    (hSecond :
      ∀ middle, exec step state first = some middle →
        Along step P middle second) :
    Along step P state (first ++ second) := by
  induction first generalizing state with
  | nil => exact hSecond state rfl
  | cons event events ih =>
      refine ⟨hFirst.1, ?_⟩
      intro next hStep
      apply ih (hFirst.2 next hStep)
      intro middle hRun
      exact hSecond middle
        (exec_cons_eq_some_iff.mpr ⟨next, hStep, hRun⟩)

/- What holds along a run holds at its last event. -/
theorem Along.last
    {P : σ → ε → Prop}
    {state middle : σ}
    {events : List ε}
    {event : ε}
    (hAlong : Along step P state (events ++ [event]))
    (hRun : exec step state events = some middle) :
    P middle event := by
  induction events generalizing state with
  | nil =>
      have hSame : state = middle := by simpa using hRun
      subst hSame
      exact hAlong.1
  | cons first events ih =>
      rcases exec_cons_eq_some_iff.mp hRun with
        ⟨next, hStep, hRest⟩
      exact ih (hAlong.2 next hStep) hRest

/- A run whose steps all return has an end. -/
theorem Along.exec_isSome
    {P : σ → ε → Prop}
    (hReturns :
      ∀ state event, P state event →
        (step state event).isSome = true)
    {state : σ}
    {events : List ε}
    (hAlong : Along step P state events) :
    (exec step state events).isSome = true := by
  induction events generalizing state with
  | nil => rfl
  | cons event events ih =>
      rcases Option.isSome_iff_exists.mp
          (hReturns state event hAlong.1) with
        ⟨next, hStep⟩
      simpa [exec, hStep] using ih (hAlong.2 next hStep)

end Transition

------------------------------------------------------------
-- Invariants
------------------------------------------------------------

namespace Transition

variable {σ ε : Type*}
variable {step : σ → ε → Option σ}
variable {I : σ → Prop}
variable {P Q : σ → ε → Prop}

/- A preserved property of the start holds at the end. -/
theorem invariant
    (hPreserved :
      ∀ state event next, I state → P state event →
        step state event = some next → I next)
    {state final : σ}
    {events : List ε}
    (hInv : I state)
    (hAlong : Along step P state events)
    (hRun : exec step state events = some final) :
    I final := by
  induction events generalizing state with
  | nil =>
      have hSame : state = final := by simpa using hRun
      exact hSame ▸ hInv
  | cons event events ih =>
      rcases exec_cons_eq_some_iff.mp hRun with
        ⟨next, hStep, hRest⟩
      exact ih (hPreserved state event next hInv hAlong.1 hStep)
        (hAlong.2 next hStep) hRest

/- What every step from an invariant state does, runs do. -/
theorem along_of_step
    (hStep :
      ∀ state event, I state → P state event →
        Q state event)
    (hPreserved :
      ∀ state event next, I state → P state event →
        step state event = some next → I next)
    {state : σ}
    {events : List ε}
    (hInv : I state)
    (hAlong : Along step P state events) :
    Along step Q state events := by
  induction events generalizing state with
  | nil => trivial
  | cons event events ih =>
      refine ⟨hStep state event hInv hAlong.1, ?_⟩
      intro next hNext
      exact ih
        (hPreserved state event next hInv hAlong.1 hNext)
        (hAlong.2 next hNext)

/-
  Two step properties that agree on the states of an
  invariant hold along the same runs, when the first of them
  keeps the invariant.
-/
theorem along_congr
    (hAgree :
      ∀ state event, I state →
        (P state event ↔ Q state event))
    (hPreserved :
      ∀ state event next, I state → P state event →
        step state event = some next → I next)
    {state : σ}
    {events : List ε}
    (hInv : I state) :
    Along step P state events ↔
      Along step Q state events := by
  constructor
  · exact along_of_step
      (fun state event hInv => (hAgree state event hInv).mp)
      hPreserved hInv
  · apply along_of_step
      (fun state event hInv => (hAgree state event hInv).mpr)
      (fun state event next hInv hQ =>
        hPreserved state event next hInv
          ((hAgree state event hInv).mpr hQ)) hInv

end Transition
