import XMLHttpRequest.Library.Transition

/-
  Runs that a monitor watches.

  A monitor keeps a memory of what it has seen and never
  disturbs the system.  It turns a statement about the past of
  a run into one about a state.

  Key definitions include:
    * `Transition.observed`
    * `Transition.total`

  Key theorems include:
    * `Transition.observed_eq_some_iff`
    * `Transition.exec_observed`
-/

------------------------------------------------------------
-- Monitors
------------------------------------------------------------

namespace Transition

variable {σ ε μ : Type*}

/- A step function that always returns. -/
def total
    (step : σ → ε → σ)
    (state : σ)
    (event : ε) : Option σ :=
  some (step state event)

/-
  A system beside the memory of a monitor, which learns the
  states before and after each event.
-/
def observed
    (step : σ → ε → Option σ)
    (observe : μ → σ → ε → σ → μ)
    (watched : σ × μ)
    (event : ε) : Option (σ × μ) :=
  (step watched.1 event).map fun next =>
    (next, observe watched.2 watched.1 event next)

variable {step : σ → ε → Option σ}
variable {observe : μ → σ → ε → σ → μ}

theorem observed_eq_some_iff
    {watched next : σ × μ}
    {event : ε} :
    observed step observe watched event = some next ↔
      step watched.1 event = some next.1 ∧
        next.2 =
          observe watched.2 watched.1 event next.1 := by
  unfold observed
  rw [Option.map_eq_some_iff]
  constructor
  · rintro ⟨state, hStep, rfl⟩
    exact ⟨hStep, rfl⟩
  · rintro ⟨hStep, hMemory⟩
    exact ⟨next.1, hStep, Prod.ext rfl hMemory.symm⟩

/- A monitor keeps no run from happening. -/
theorem exec_observed
    {state final : σ}
    {events : List ε}
    (hRun : exec step state events = some final)
    (memory : μ) :
    ∃ memory',
      exec (observed step observe) (state, memory) events =
        some (final, memory') := by
  induction events generalizing state memory with
  | nil =>
      have hSame : state = final := by simpa using hRun
      exact ⟨memory, hSame ▸ rfl⟩
  | cons event events ih =>
      rcases exec_cons_eq_some_iff.mp hRun with
        ⟨next, hStep, hRest⟩
      rcases ih hRest (observe memory state event next) with
        ⟨memory', hExec⟩
      refine ⟨memory', exec_cons_eq_some_iff.mpr ?_⟩
      exact ⟨_, observed_eq_some_iff.mpr ⟨hStep, rfl⟩, hExec⟩

end Transition
