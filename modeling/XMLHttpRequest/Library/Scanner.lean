import Mathlib.Data.List.Basic
import Mathlib.Data.List.TakeWhile

/-
  Scanners that give up in a dead state.

  A scanner reads a text from the left.  Within a group of
  states that only the characters of a class leave alive, it
  survives a text exactly when all characters are of the
  class.  A reader that carries more than its state takes the
  texts that the state survives.

  Key definitions include:
    * `Scanner.scan`
    * `Scanner.Absorbing`
    * `Scanner.Reads`
    * `Scanner.readAt`
    * `Scanner.Tracks`

  Key theorems include:
    * `Scanner.alive_append_iff`
    * `Scanner.group_of_alive`
    * `Scanner.Reads.alive_iff`
    * `Scanner.Reads.closed`
    * `Scanner.cut`
    * `Scanner.Tracks.readAt_isSome_iff`
-/

------------------------------------------------------------
-- Scanning
------------------------------------------------------------

namespace Scanner

variable {σ α : Type*}

/- The state after a text. -/
def scan
    (step : σ → α → σ)
    (state : σ)
    (text : List α) : σ :=
  text.foldl step state

/- The dead state is not left. -/
def Absorbing (step : σ → α → σ) (dead : σ) : Prop :=
  ∀ c, step dead c = dead

variable {step : σ → α → σ}
variable {dead state : σ}

@[simp] theorem scan_nil (state : σ) :
    scan step state [] = state := rfl

@[simp] theorem scan_cons
    (state : σ)
    (c : α)
    (text : List α) :
    scan step state (c :: text) =
      scan step (step state c) text := rfl

theorem scan_append
    (state : σ)
    (first second : List α) :
    scan step state (first ++ second) =
      scan step (scan step state first) second :=
  List.foldl_append

theorem scan_dead
    (hDead : Absorbing step dead)
    (text : List α) :
    scan step dead text = dead := by
  induction text with
  | nil => rfl
  | cons c text ih =>
      rw [scan_cons, hDead]
      exact ih

/- A scan survives a text if it survives both its parts. -/
theorem alive_append_iff
    (hDead : Absorbing step dead)
    (first second : List α) :
    scan step state (first ++ second) ≠ dead ↔
      scan step state first ≠ dead ∧
        scan step (scan step state first) second ≠ dead := by
  rw [scan_append]
  refine ⟨fun hAlive => ⟨?_, hAlive⟩, fun hBoth => hBoth.2⟩
  intro hEnd
  apply hAlive
  rw [hEnd, scan_dead hDead]

/- A text that keeps within a group ends in it. -/
theorem stays
    {group : σ → Prop}
    {text : List α}
    (hStep :
      ∀ c ∈ text, ∀ state, group state →
        group (step state c))
    (hStart : group state) :
    group (scan step state text) := by
  induction text generalizing state with
  | nil => exact hStart
  | cons c text ih =>
      exact ih
        (fun d hMem => hStep d (List.mem_cons_of_mem c hMem))
        (hStep c List.mem_cons_self state hStart)

/- Where only death leads out of a group, survivors stay. -/
theorem group_of_alive
    {group : σ → Prop}
    (hDead : Absorbing step dead)
    {text : List α}
    (hStep :
      ∀ c ∈ text, ∀ state, group state →
        step state c ≠ dead → group (step state c))
    (hStart : group state)
    (hAlive : scan step state text ≠ dead) :
    group (scan step state text) := by
  induction text generalizing state with
  | nil => exact hStart
  | cons c text ih =>
      have hFirst : step state c ≠ dead := by
        intro hEnd
        apply hAlive
        rw [scan_cons, hEnd, scan_dead hDead]
      have hNext :=
        hStep c List.mem_cons_self state hStart hFirst
      exact ih (fun d hMem =>
        hStep d (List.mem_cons_of_mem c hMem)) hNext hAlive

end Scanner

------------------------------------------------------------
-- Classes of Characters
------------------------------------------------------------

namespace Scanner

variable {σ α : Type*}

/-
  In the states of a group the characters of a class are read,
  and all other characters of the text are fatal.
-/
structure Reads
    (step : σ → α → σ)
    (dead : σ)
    (group : σ → Prop)
    (accepts : α → Prop)
    (text : List α) : Prop where
  absorbing : Absorbing step dead
  alive : ¬ group dead
  reads :
    ∀ c ∈ text, ∀ state, group state → accepts c →
      group (step state c)
  fatal :
    ∀ c ∈ text, ∀ state, group state → ¬ accepts c →
      step state c = dead

namespace Reads

variable {step : σ → α → σ}
variable {dead state : σ}
variable {group : σ → Prop}
variable {accepts : α → Prop}
variable {text : List α}

theorem tail
    {c : α}
    (hReads : Reads step dead group accepts (c :: text)) :
    Reads step dead group accepts text where
  absorbing := hReads.absorbing
  alive := hReads.alive
  reads d hMem := hReads.reads d (List.mem_cons_of_mem c hMem)
  fatal d hMem := hReads.fatal d (List.mem_cons_of_mem c hMem)

/- A text of the class does not lead out of the group. -/
theorem closed
    (hReads : Reads step dead group accepts text)
    (hStart : group state)
    (hAll : ∀ c ∈ text, accepts c) :
    group (scan step state text) := by
  refine stays ?_ hStart
  intro c hMem state hState
  exact hReads.reads c hMem state hState (hAll c hMem)

/- The scan survives just the texts of the class. -/
theorem alive_iff
    (hReads : Reads step dead group accepts text)
    (hStart : group state) :
    scan step state text ≠ dead ↔ ∀ c ∈ text, accepts c := by
  constructor
  · intro hAlive
    induction text generalizing state with
    | nil => exact fun c hMem => absurd hMem List.not_mem_nil
    | cons c text ih =>
        have hFirst : accepts c := by
          by_contra hOther
          apply hAlive
          rw [scan_cons,
            hReads.fatal c List.mem_cons_self state hStart
              hOther]
          exact scan_dead hReads.absorbing text
        have hNext :=
          hReads.reads c List.mem_cons_self state hStart hFirst
        exact List.forall_mem_cons.mpr
          ⟨hFirst, ih hReads.tail hNext hAlive⟩
  · intro hAll hEnd
    have hClosed := hReads.closed hStart hAll
    rw [hEnd] at hClosed
    exact hReads.alive hClosed

end Reads

/- A text up to its first character outside of a class. -/
theorem cut
    (accepts : α → Bool)
    (text : List α) :
    ∃ run rest,
      text = run ++ rest ∧
        (∀ c ∈ run, accepts c = true) ∧
          ∀ c ∈ rest.head?, accepts c = false := by
  refine ⟨text.takeWhile accepts, text.dropWhile accepts,
    List.takeWhile_append_dropWhile.symm, ?_, ?_⟩
  · intro c hMem
    exact List.mem_takeWhile_imp hMem
  · intro c hHead
    have hFound :=
      List.head?_dropWhile_not accepts text
    rw [Option.mem_def.mp hHead] at hFound
    exact hFound

end Scanner

------------------------------------------------------------
-- Readers
------------------------------------------------------------

namespace Scanner

variable {σ α τ : Type*}

/-
  Read a text that begins at a position, with a reader that
  may refuse a character.
-/
def readAt
    (char : τ → Nat → α → Option τ) :
    τ → Nat → List α → Option τ
  | reader, _, [] => some reader
  | reader, p, c :: text =>
      (char reader p c).bind fun next =>
        readAt char next (p + 1) text

/- The reader refuses what leads its state to death. -/
structure Tracks
    (char : τ → Nat → α → Option τ)
    (state : τ → σ)
    (step : σ → α → σ)
    (dead : σ) : Prop where
  absorbing : Absorbing step dead
  state_eq :
    ∀ reader p c next, char reader p c = some next →
      state next = step (state reader) c
  isSome_iff :
    ∀ reader p c, (char reader p c).isSome = true ↔
      step (state reader) c ≠ dead

variable {char : τ → Nat → α → Option τ}
variable {state : τ → σ}
variable {step : σ → α → σ}
variable {dead : σ}
variable {reader last : τ}
variable {p : Nat}

theorem readAt_append
    (first second : List α) :
    readAt char reader p (first ++ second) =
      (readAt char reader p first).bind fun next =>
        readAt char next (p + first.length) second := by
  induction first generalizing reader p with
  | nil => rfl
  | cons c first ih =>
      rw [List.cons_append, readAt, readAt, Option.bind_assoc]
      congr 1
      funext next
      rw [ih, List.length_cons, Nat.add_assoc,
        Nat.add_comm 1 first.length]

theorem Tracks.state_of_readAt
    (hTracks : Tracks char state step dead)
    {text : List α}
    (hRead : readAt char reader p text = some last) :
    state last = scan step (state reader) text := by
  induction text generalizing reader p with
  | nil =>
      rw [readAt, Option.some.injEq] at hRead
      rw [hRead, scan_nil]
  | cons c text ih =>
      rw [readAt, Option.bind_eq_some_iff] at hRead
      rcases hRead with ⟨next, hChar, hRest⟩
      rw [ih hRest, hTracks.state_eq _ _ _ _ hChar, scan_cons]

/- The reader takes the texts that its state survives. -/
theorem Tracks.readAt_isSome_iff
    (hTracks : Tracks char state step dead)
    (text : List α)
    (hStart : state reader ≠ dead) :
    (readAt char reader p text).isSome = true ↔
      scan step (state reader) text ≠ dead := by
  induction text generalizing reader p with
  | nil => exact iff_of_true rfl hStart
  | cons c text ih =>
      have hTaken := hTracks.isSome_iff reader p c
      rw [readAt, scan_cons]
      cases hChar : char reader p c with
      | none =>
          have hEnd : step (state reader) c = dead := by
            rw [hChar] at hTaken
            by_contra hAlive
            exact absurd (hTaken.mpr hAlive) (by simp)
          rw [hEnd, scan_dead hTracks.absorbing]
          simp
      | some next =>
          have hState := hTracks.state_eq _ _ _ _ hChar
          rw [hChar] at hTaken
          have hAlive := hTaken.mp rfl
          rw [← hState] at hAlive ⊢
          exact ih hAlive

end Scanner
