import Mathlib.Data.List.Basic
import XMLHttpRequest.Library.Transition

/-
  Systems whose steps are made of the steps of a smaller one.

  A step of the large system may do any of the small steps
  that are listed for it, in the order of the list, and leave
  out the others.  What holds of the small system then holds
  of the view that the large one gives of it.  Of some small
  steps more may be known: they are relayed in full.

  Key definitions include:
    * `Transition.Follows`
    * `Transition.Relays`
    * `Transition.relayedIn`

  Key theorems include:
    * `Transition.follows_exec`
    * `Transition.relays_exec`
    * `Transition.Follows.invariant`
-/

------------------------------------------------------------
-- Following a List
------------------------------------------------------------

namespace Transition

variable {τ κ : Type*}

/-
  `after` is what some of the listed small steps, in their
  order, make of `before`.
-/
def Follows
    (small : τ → κ → τ)
    (listed : List κ)
    (before after : τ) : Prop :=
  ∃ happened : List κ, happened.Sublist listed ∧
    happened.foldl small before = after

namespace Follows

variable {small : τ → κ → τ}
variable {first second listed : List κ}
variable {before middle after : τ}

protected theorem refl
    (listed : List κ)
    (state : τ) :
    Follows small listed state state :=
  ⟨[], List.nil_sublist listed, rfl⟩

/- All that is listed has happened. -/
protected theorem all
    (hAll : listed.foldl small before = after) :
    Follows small listed before after :=
  ⟨listed, List.Sublist.refl listed, hAll⟩

protected theorem append
    (hFirst : Follows small first before middle)
    (hSecond : Follows small second middle after) :
    Follows small (first ++ second) before after := by
  rcases hFirst with ⟨earlier, hEarlier, rfl⟩
  rcases hSecond with ⟨later, hLater, rfl⟩
  refine ⟨earlier ++ later, hEarlier.append hLater, ?_⟩
  rw [List.foldl_append]

/- What may happen may also happen within a longer list. -/
protected theorem mono
    (hListed : first.Sublist second)
    (hFollows : Follows small first before after) :
    Follows small second before after := by
  rcases hFollows with ⟨happened, hHappened, hEnd⟩
  exact ⟨happened, hHappened.trans hListed, hEnd⟩

protected theorem left
    (hFollows : Follows small first before after)
    (second : List κ) :
    Follows small (first ++ second) before after :=
  hFollows.mono (List.sublist_append_left first second)

/- What all listed steps keep holds at the end. -/
theorem invariant
    {I : τ → Prop}
    (hFollows : Follows small listed before after)
    (hKept :
      ∀ state, ∀ event ∈ listed,
        I state → I (small state event))
    (hBefore : I before) :
    I after := by
  rcases hFollows with ⟨happened, hHappened, rfl⟩
  induction happened generalizing before with
  | nil => exact hBefore
  | cons event events ih =>
      have hMem : event ∈ listed :=
        hHappened.subset List.mem_cons_self
      exact ih (hKept before event hMem hBefore)
        ((List.sublist_cons_self event events).trans
          hHappened)

end Follows

end Transition

------------------------------------------------------------
-- Runs
------------------------------------------------------------

namespace Transition

variable {σ ε τ κ : Type*}
variable {step : σ → ε → Option σ}
variable {small : τ → κ → τ}
variable {view : σ → τ}
variable {listed : ε → List κ}

/-
  If every step does what is listed for its event, a run does
  what is listed for its events.
-/
theorem follows_exec
    (hStep :
      ∀ state event next, step state event = some next →
        Follows small (listed event) (view state)
          (view next))
    {state final : σ}
    {events : List ε}
    (hRun : exec step state events = some final) :
    Follows small (events.flatMap listed) (view state)
      (view final) := by
  induction events generalizing state with
  | nil =>
      have hSame : state = final := by simpa using hRun
      exact hSame ▸ .refl _ _
  | cons event events ih =>
      rcases exec_cons_eq_some_iff.mp hRun with
        ⟨next, hNext, hRest⟩
      rw [List.flatMap_cons]
      exact (hStep state event next hNext).append (ih hRest)

end Transition

------------------------------------------------------------
-- Relaying
------------------------------------------------------------

namespace Transition

variable {σ ε τ κ : Type*}

/-
  As above, and of the selected small steps just those of
  `relayed` have happened.
-/
def Relays
    (small : τ → κ → τ)
    (selects : κ → Bool)
    (listed relayed : List κ)
    (before after : τ) : Prop :=
  ∃ happened : List κ, happened.Sublist listed ∧
    happened.filter selects = relayed.filter selects ∧
      happened.foldl small before = after

/- What a run relays, when an event relays `relayed`. -/
def relayedIn
    (step : σ → ε → Option σ)
    (relayed : σ → ε → List κ) :
    σ → List ε → List κ
  | _, [] => []
  | state, event :: events =>
      relayed state event ++
        match step state event with
        | some next => relayedIn step relayed next events
        | none => []

namespace Relays

variable {small : τ → κ → τ}
variable {selects : κ → Bool}
variable {listed listed' relayed relayed' : List κ}
variable {before middle after : τ}

/- Nothing is relayed where nothing selected is listed. -/
theorem of_follows
    (hFollows : Follows small listed before after)
    (hNone : ∀ event ∈ listed, selects event = false) :
    Relays small selects listed [] before after := by
  rcases hFollows with ⟨happened, hHappened, hEnd⟩
  refine ⟨happened, hHappened, ?_, hEnd⟩
  apply List.filter_eq_nil_iff.mpr
  intro event hMem
  rw [hNone event (hHappened.subset hMem)]
  exact Bool.false_ne_true

protected theorem refl
    (listed : List κ)
    (state : τ) :
    Relays small selects listed [] state state :=
  ⟨[], List.nil_sublist listed, rfl, rfl⟩

protected theorem all
    (hAll : listed.foldl small before = after) :
    Relays small selects listed listed before after :=
  ⟨listed, List.Sublist.refl listed, rfl, hAll⟩

/- More may be listed than has happened. -/
protected theorem mono
    (hListed : listed.Sublist listed')
    (hRelays :
      Relays small selects listed relayed before after) :
    Relays small selects listed' relayed before after := by
  rcases hRelays with ⟨happened, hHappened, hRest⟩
  exact ⟨happened, hHappened.trans hListed, hRest⟩

protected theorem follows
    (hRelays :
      Relays small selects listed relayed before after) :
    Follows small listed before after := by
  rcases hRelays with ⟨happened, hHappened, _, hEnd⟩
  exact ⟨happened, hHappened, hEnd⟩

protected theorem append
    (hFirst :
      Relays small selects listed relayed before middle)
    (hSecond :
      Relays small selects listed' relayed' middle after) :
    Relays small selects (listed ++ listed')
      (relayed ++ relayed') before after := by
  rcases hFirst with ⟨earlier, hEarlier, hSelected, rfl⟩
  rcases hSecond with ⟨later, hLater, hSelected', rfl⟩
  refine ⟨earlier ++ later, hEarlier.append hLater, ?_, ?_⟩
  · rw [List.filter_append, hSelected, hSelected',
      List.filter_append]
  · rw [List.foldl_append]

end Relays

variable {step : σ → ε → Option σ}
variable {small : τ → κ → τ}
variable {selects : κ → Bool}
variable {view : σ → τ}
variable {listed : ε → List κ}
variable {relayed : σ → ε → List κ}

theorem relays_exec
    {state final : σ}
    {events : List ε}
    (hStep :
      ∀ state, ∀ event ∈ events, ∀ next,
        step state event = some next →
          Relays small selects (listed event)
            (relayed state event) (view state) (view next))
    (hRun : exec step state events = some final) :
    Relays small selects (events.flatMap listed)
      (relayedIn step relayed state events)
      (view state) (view final) := by
  induction events generalizing state with
  | nil =>
      have hSame : state = final := by simpa using hRun
      exact hSame ▸ .all rfl
  | cons event events ih =>
      rcases exec_cons_eq_some_iff.mp hRun with
        ⟨next, hNext, hRest⟩
      have hFirst :=
        hStep state event List.mem_cons_self next hNext
      have hLater :=
        ih (fun state other hMem =>
          hStep state other (List.mem_cons_of_mem _ hMem))
          hRest
      rw [List.flatMap_cons, relayedIn, hNext]
      exact hFirst.append hLater

end Transition
