import Mathlib.Data.List.Chain

/-
  A register that some of the events of a run overwrite.

  Key definitions include:
    * `Register.history`

  Key theorems include:
    * `Register.filterMap_filter_isSome`
    * `Register.isChain_history_iff`
-/

------------------------------------------------------------
-- Registers
------------------------------------------------------------

namespace Register

variable {α ε : Type*}

/- The value before a run and after each of its events. -/
def history
    (written : ε → Option α) :
    α → List ε → List α
  | value, [] => [value]
  | value, event :: events =>
      value :: history written
        ((written event).getD value) events

variable {written : ε → Option α}

/- Events that write nothing do not matter. -/
theorem filterMap_filter_isSome (events : List ε) :
    (events.filter fun event =>
        (written event).isSome).filterMap written =
      events.filterMap written := by
  induction events with
  | nil => rfl
  | cons event events ih =>
      cases hWritten : written event <;>
        simp [hWritten, ih]

theorem history_eq_cons (value : α) (events : List ε) :
    ∃ rest, history written value events =
      value :: rest := by
  cases events with
  | nil => exact ⟨[], rfl⟩
  | cons event events => exact ⟨_, rfl⟩

/-
  The values follow each other by a reflexive relation when
  the first one and those that are written do.
-/
theorem isChain_history_iff
    {R : α → α → Prop}
    (hRefl : ∀ value, R value value)
    (value : α)
    (events : List ε) :
    (history written value events).IsChain R ↔
      (value :: events.filterMap written).IsChain R := by
  induction events generalizing value with
  | nil => simp [history]
  | cons event events ih =>
      have hRest := ih ((written event).getD value)
      rcases history_eq_cons
          ((written event).getD value) events with
        ⟨rest, hHistory⟩
      simp only [history]
      rw [hHistory] at hRest ⊢
      rw [List.isChain_cons_cons, hRest]
      cases hWritten : written event with
      | none => simp [hWritten, hRefl]
      | some next => simp [hWritten]

end Register
