import Mathlib.Logic.Basic

/-
  Computations that return, throw or leave what their language
  defines.

  Key definitions include:
    * `Outcome`
    * `Outcome.bind`
    * `Outcome.foldl`
    * `Outcome.ThrowsOnly`

  Key theorems include:
    * `Outcome.foldl_range`
    * `Outcome.exists_round_of_foldl`
    * `Outcome.ThrowsOnly.foldl`
-/

------------------------------------------------------------
-- Outcomes
------------------------------------------------------------

/-
  How a computation ends: with a value, with an exception, or
  in a step that its language gives no meaning.
-/
inductive Outcome (ε α : Type)
  | returns (value : α)
  | throws (exception : ε)
  | undefined
  deriving DecidableEq, Repr

namespace Outcome

variable {ε α β : Type}

/- Go on with the value, if there is one. -/
def bind
    (outcome : Outcome ε α)
    (next : α → Outcome ε β) : Outcome ε β :=
  match outcome with
  | returns value => next value
  | throws exception => throws exception
  | undefined => undefined

def map
    (f : α → β)
    (outcome : Outcome ε α) : Outcome ε β :=
  outcome.bind fun value => returns (f value)

@[simp]
theorem bind_returns
    (value : α)
    (next : α → Outcome ε β) :
    (returns value).bind next = next value := rfl

@[simp]
theorem bind_throws
    (exception : ε)
    (next : α → Outcome ε β) :
    (throws exception).bind next = throws exception := rfl

@[simp]
theorem bind_undefined (next : α → Outcome ε β) :
    (undefined : Outcome ε α).bind next = undefined := rfl

@[simp]
theorem map_returns (f : α → β) (value : α) :
    (returns value : Outcome ε α).map f =
      returns (f value) := rfl

theorem bind_eq_returns_iff
    {outcome : Outcome ε α}
    {next : α → Outcome ε β}
    {result : β} :
    outcome.bind next = returns result ↔
      ∃ value, outcome = returns value ∧
        next value = returns result := by
  cases outcome <;> simp [bind]

/- A throw comes from the first computation or the next. -/
theorem bind_eq_throws_iff
    {outcome : Outcome ε α}
    {next : α → Outcome ε β}
    {exception : ε} :
    outcome.bind next = throws exception ↔
      outcome = throws exception ∨
        ∃ value, outcome = returns value ∧
          next value = throws exception := by
  cases outcome <;> simp [bind]

@[simp]
theorem map_eq_throws_iff
    {outcome : Outcome ε α}
    {f : α → β}
    {exception : ε} :
    outcome.map f = throws exception ↔
      outcome = throws exception := by
  simp [map, bind_eq_throws_iff]

end Outcome

------------------------------------------------------------
-- Loops
------------------------------------------------------------

namespace Outcome

variable {ε α β : Type}

/- A loop over a list, left as soon as a round is. -/
def foldl
    (round : β → α → Outcome ε β) :
    β → List α → Outcome ε β
  | state, [] => returns state
  | state, item :: items =>
      (round state item).bind (foldl round · items)

theorem foldl_append
    (round : β → α → Outcome ε β)
    (state : β)
    (first second : List α) :
    foldl round state (first ++ second) =
      (foldl round state first).bind
        (foldl round · second) := by
  induction first generalizing state with
  | nil => rfl
  | cons item first ih =>
      simp only [List.cons_append, foldl]
      cases round state item with
      | returns next => exact ih next
      | throws exception => rfl
      | undefined => rfl

/- A counting loop whose rounds follow the given states. -/
theorem foldl_range
    {round : β → Nat → Outcome ε β}
    (state : Nat → β)
    (n : Nat)
    (hRound :
      ∀ k < n, round (state k) k = returns (state (k + 1))) :
    foldl round (state 0) (List.range n) =
      returns (state n) := by
  induction n with
  | zero => rfl
  | succ n ih =>
      have hBefore :=
        ih fun k hk => hRound k (Nat.lt_succ_of_lt hk)
      rw [List.range_succ, foldl_append, hBefore,
        bind_returns, foldl, hRound n (Nat.lt_succ_self n),
        bind_returns, foldl]

/- A loop whose rounds all return is a fold. -/
theorem foldl_eq_returns
    {round : β → α → Outcome ε β}
    {step : β → α → β}
    {items : List α}
    (Inv : β → Prop)
    (hRound :
      ∀ state, Inv state → ∀ item ∈ items,
        round state item = returns (step state item) ∧
          Inv (step state item))
    {state : β}
    (hInv : Inv state) :
    foldl round state items =
      returns (items.foldl step state) := by
  induction items generalizing state with
  | nil => rfl
  | cons item items ih =>
      rcases hRound state hInv item List.mem_cons_self with
        ⟨hFirst, hNext⟩
      rw [foldl, hFirst, bind_returns]
      exact ih
        (fun later hLater other hOther =>
          hRound later hLater other
            (List.mem_cons_of_mem _ hOther))
        hNext

/- A loop that ends has gone through every round. -/
theorem exists_round_of_foldl
    {round : β → α → Outcome ε β}
    {items : List α}
    {state final : β}
    (hLoop : foldl round state items = returns final)
    {item : α}
    (hItem : item ∈ items) :
    ∃ before next, round before item = returns next := by
  induction items generalizing state with
  | nil => cases hItem
  | cons first items ih =>
      rcases bind_eq_returns_iff.mp hLoop with
        ⟨next, hFirst, hRest⟩
      rcases List.mem_cons.mp hItem with rfl | hLater
      · exact ⟨state, next, hFirst⟩
      · exact ih hRest hLater

end Outcome

------------------------------------------------------------
-- The One Exception
------------------------------------------------------------

namespace Outcome

variable {ε α β : Type}
variable {exception : ε}

/- The computation returns, or throws this and nothing else. -/
def ThrowsOnly
    (exception : ε)
    (outcome : Outcome ε α) : Prop :=
  (∃ value, outcome = returns value) ∨
    outcome = throws exception

theorem throwsOnly_returns (value : α) :
    ThrowsOnly exception (returns value) :=
  .inl ⟨value, rfl⟩

theorem throwsOnly_throws :
    ThrowsOnly exception (throws exception : Outcome ε α) :=
  .inr rfl

theorem ThrowsOnly.bind
    {outcome : Outcome ε α}
    {next : α → Outcome ε β}
    (hFirst : ThrowsOnly exception outcome)
    (hNext : ∀ value, ThrowsOnly exception (next value)) :
    ThrowsOnly exception (outcome.bind next) := by
  rcases hFirst with ⟨value, rfl⟩ | rfl
  · exact hNext value
  · exact .inr rfl

theorem ThrowsOnly.foldl
    {round : β → α → Outcome ε β}
    (hRound :
      ∀ state item,
        ThrowsOnly exception (round state item))
    (state : β)
    (items : List α) :
    ThrowsOnly exception (foldl round state items) := by
  induction items generalizing state with
  | nil => exact throwsOnly_returns state
  | cons item items ih => exact (hRound state item).bind ih

end Outcome
