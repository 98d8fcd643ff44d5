import Mathlib.Data.List.Basic
import XMLHttpRequest.Library.Regex

/-
  Rules for computing where a backtracking match ends.

  A greedy repetition of one class of symbols reads some part
  of the longest run of that class, the longest part first.
  Where what follows cannot begin inside the run, only the
  whole run is left.

  Key definitions include:
    * `Regex.Position.advance`
    * `Regex.Position.run`
    * `Regex.countdown`

  Key theorems include:
    * `Regex.ends_repeated_char`
    * `Regex.findSome?_countdown`
    * `Regex.searchFrom_eq_some`
-/

------------------------------------------------------------
-- Positions
------------------------------------------------------------

namespace Regex

variable {α : Type}

namespace Position

variable (position : Position α)

/- The place after the next `count` symbols. -/
def advance (count : Nat) : Position α :=
  { position with
    before :=
      (position.rest.take count).reverse ++ position.before
    rest := position.rest.drop count }

/- How many of the next symbols are of a class. -/
def run (accepts : α → Bool) : Nat :=
  (position.rest.takeWhile accepts).length

@[simp]
theorem advance_zero :
    position.advance 0 = position := by
  simp [advance]

@[simp]
theorem advance_advance (first second : Nat) :
    (position.advance first).advance second =
      position.advance (first + second) := by
  simp [advance, List.take_add]

@[simp]
theorem advance_rest (count : Nat) :
    (position.advance count).rest =
      position.rest.drop count :=
  rfl

@[simp]
theorem advance_captures (count : Nat) :
    (position.advance count).captures = position.captures :=
  rfl

theorem run_of_nil
    {accepts : α → Bool}
    {position : Position α}
    (hRest : position.rest = []) :
    position.run accepts = 0 := by
  rw [run, hRest]
  rfl

/- A symbol of the class makes the run one longer. -/
theorem run_of_accepts
    {accepts : α → Bool}
    {position : Position α}
    {symbol : α}
    {rest : List α}
    (hRest : position.rest = symbol :: rest)
    (hSymbol : accepts symbol = true) :
    position.run accepts =
      (position.advance 1).run accepts + 1 := by
  simp [run, hRest, hSymbol]

theorem run_of_not
    {accepts : α → Bool}
    {position : Position α}
    {symbol : α}
    {rest : List α}
    (hRest : position.rest = symbol :: rest)
    (hSymbol : accepts symbol = false) :
    position.run accepts = 0 := by
  simp [run, hRest, hSymbol]

theorem run_le_length (accepts : α → Bool) :
    position.run accepts ≤ position.rest.length :=
  (List.takeWhile_prefix accepts).length_le

theorem textUpTo_advance (count : Nat) :
    position.textUpTo (position.advance count) =
      position.rest.take count := by
  simp only [textUpTo, advance, List.length_append,
    Nat.add_sub_cancel]
  rw [List.take_left' rfl, List.reverse_reverse]

end Position

end Regex

------------------------------------------------------------
-- Counting Down
------------------------------------------------------------

namespace Regex

/- The numbers from `top` down to `least`. -/
def countdown (least top : Nat) : List Nat :=
  (List.range' least (top + 1 - least)).reverse

/- A count that is cut off at an optional bound. -/
def cutOff (most : Option Nat) (count : Nat) : Nat :=
  match most with
  | none => count
  | some bound => min bound count

theorem cutOff_zero (most : Option Nat) :
    cutOff most 0 = 0 := by
  cases most with
  | none => rfl
  | some bound => exact Nat.min_zero bound

theorem cutOff_succ
    {most : Option Nat}
    (hMost : most ≠ some 0)
    (count : Nat) :
    cutOff most (count + 1) =
      cutOff (most.map (· - 1)) count + 1 := by
  cases most with
  | none => rfl
  | some bound =>
      have hBound : bound ≠ 0 := by simpa using hMost
      simp only [cutOff, Option.map_some]
      omega

@[simp]
theorem mem_countdown {least top count : Nat} :
    count ∈ countdown least top ↔
      least ≤ count ∧ count ≤ top := by
  simp only [countdown, List.mem_reverse, List.mem_range'_1]
  omega

theorem countdown_zero (least : Nat) :
    countdown least 0 = if least = 0 then [0] else [] := by
  cases least with
  | zero => rfl
  | succ least => simp [countdown]

theorem map_succ_range' (start count : Nat) :
    (List.range' start count).map (· + 1) =
      List.range' (start + 1) count := by
  rw [Nat.add_comm start 1, ← List.map_add_range']
  exact List.map_congr_left fun n _ => Nat.add_comm n 1

theorem countdown_succ (least top : Nat) :
    countdown least (top + 1) =
      (countdown (least - 1) top).map (· + 1) ++
        if least = 0 then [0] else [] := by
  simp only [countdown, List.map_reverse, map_succ_range']
  cases least with
  | zero => simp [List.range'_succ]
  | succ least =>
      have hCount :
          top + 1 + 1 - (least + 1) = top + 1 - least := by
        omega
      simp [hCount]

theorem countdown_of_le
    {least top : Nat}
    (hLeast : least ≤ top) :
    ∃ others, countdown least top = top :: others := by
  refine ⟨(List.range' least (top - least)).reverse, ?_⟩
  have hCount : top + 1 - least = top - least + 1 := by
    omega
  rw [countdown, hCount, List.range'_concat]
  simp [hLeast]

theorem countdown_of_lt
    {least top : Nat}
    (hLeast : top < least) :
    countdown least top = [] := by
  simp [countdown, Nat.sub_eq_zero_of_le hLeast]

end Regex

------------------------------------------------------------
-- Greedy Runs
------------------------------------------------------------

namespace Regex

variable {α : Type}
variable (breaks : LineBreaks α)

theorem ends_char_nil
    (accepts : α → Bool)
    {position : Position α}
    (hRest : position.rest = []) :
    ends breaks (.char accepts) position = [] := by
  rw [ends, hRest]

theorem ends_char_cons
    (accepts : α → Bool)
    {position : Position α}
    {symbol : α}
    {rest : List α}
    (hRest : position.rest = symbol :: rest) :
    ends breaks (.char accepts) position =
      if accepts symbol then [position.advance 1] else [] := by
  simp [ends, Position.advance, hRest]

theorem ends_seq_char_cons
    {accepts : α → Bool}
    {second : Pattern α}
    {position : Position α}
    {symbol : α}
    {rest : List α}
    (hRest : position.rest = symbol :: rest)
    (hSymbol : accepts symbol = true) :
    ends breaks (.seq (.char accepts) second) position =
      ends breaks second (position.advance 1) := by
  rw [ends, ends_char_cons breaks accepts hRest,
    if_pos hSymbol]
  simp

theorem ends_seq_char_of_not
    {accepts : α → Bool}
    {second : Pattern α}
    {position : Position α}
    (hRest :
      ∀ symbol ∈ position.rest.head?,
        accepts symbol = false) :
    ends breaks (.seq (.char accepts) second) position =
      [] := by
  rw [ends]
  cases hText : position.rest with
  | nil => rw [ends_char_nil breaks accepts hText]; rfl
  | cons symbol rest =>
      have hSymbol := hRest symbol (by simp [hText])
      rw [ends_char_cons breaks accepts hText]
      simp [hSymbol]

/- One round more, or the end where enough have been made. -/
theorem repeatGreedy_char
    (accepts : α → Bool)
    (fuel least : Nat)
    (most : Option Nat)
    (position : Position α)
    (hFuel : position.rest.length < fuel) :
    repeatGreedy (ends breaks (.char accepts)) fuel least
        most position =
      (countdown least
        (cutOff most (position.run accepts))).map
          position.advance := by
  induction fuel generalizing least most position with
  | zero => omega
  | succ fuel ih =>
      have hEnd :
          (if least = 0 then [position] else []) =
            (if least = 0 then [0] else []).map
              position.advance := by
        cases least with
        | zero => simp
        | succ least => rfl
      rw [repeatGreedy, hEnd]
      by_cases hMost : most = some 0
      · have hTop :
            cutOff most (position.run accepts) = 0 := by
          rw [hMost]
          exact Nat.zero_min _
        rw [if_pos hMost, hTop, countdown_zero]
        rfl
      rw [if_neg hMost]
      cases hRest : position.rest with
      | nil =>
          rw [ends_char_nil breaks accepts hRest,
            Position.run_of_nil hRest, cutOff_zero,
            countdown_zero]
          rfl
      | cons symbol rest =>
          rw [ends_char_cons breaks accepts hRest]
          cases hSymbol : accepts symbol with
          | false =>
              rw [Position.run_of_not hRest hSymbol,
                cutOff_zero, countdown_zero]
              rfl
          | true =>
              -- one round, then the rest of the run
              have hNext :
                  (position.advance 1).rest.length <
                    position.rest.length := by
                simp [hRest]
              have hAhead := ih (least - 1)
                (most.map (· - 1)) (position.advance 1)
                (by omega)
              rw [Position.run_of_accepts hRest hSymbol,
                cutOff_succ hMost, countdown_succ,
                List.map_append, List.map_map, if_pos rfl,
                List.flatMap_singleton, ← hRest,
                if_pos hNext, hAhead]
              congr 1
              apply List.map_congr_left
              intro count _
              simp [Nat.add_comm]

/- A repeated class ends anywhere in its run, latest first. -/
theorem ends_repeated_char
    (accepts : α → Bool)
    (least : Nat)
    (most : Option Nat)
    (position : Position α) :
    ends breaks (.repeated (.char accepts) least most)
        position =
      (countdown least
        (cutOff most (position.run accepts))).map
          position.advance := by
  rw [ends]
  exact repeatGreedy_char breaks accepts _ least most position
    (Nat.lt_succ_self _)

end Regex

------------------------------------------------------------
-- The Preferred End
------------------------------------------------------------

namespace Regex

variable {α β : Type}
variable (breaks : LineBreaks α)

theorem head?_ends_seq
    (first second : Pattern α)
    (position : Position α) :
    (ends breaks (.seq first second) position).head? =
      (ends breaks first position).findSome? fun next =>
        (ends breaks second next).head? := by
  rw [ends, List.head?_flatMap]

theorem head?_ends_group
    (index : Nat)
    (body : Pattern α)
    (position : Position α) :
    (ends breaks (.group index body) position).head? =
      (ends breaks body position).head?.map fun last =>
        { last with
          captures :=
            (index, position.textUpTo last) ::
              last.captures } := by
  rw [ends, List.head?_map]

theorem ends_seq_lineStart
    (second : Pattern α)
    (position : Position α) :
    ends breaks (.seq .lineStart second) position =
      if breaks.startsLine position.before position.rest then
        ends breaks second position
      else [] := by
  rw [ends, ends]
  split
  · simp
  · rfl

/- What follows a repeated class is tried after each count. -/
theorem head?_ends_seq_repeated
    (accepts : α → Bool)
    (least : Nat)
    (most : Option Nat)
    (second : Pattern α)
    (position : Position α) :
    (ends breaks
        (.seq (.repeated (.char accepts) least most) second)
        position).head? =
      (countdown least
        (cutOff most (position.run accepts))).findSome?
          fun count =>
            (ends breaks second
              (position.advance count)).head? := by
  rw [head?_ends_seq, ends_repeated_char, List.findSome?_map]
  rfl

theorem head?_ends_seq_group
    (index : Nat)
    (accepts : α → Bool)
    (least : Nat)
    (most : Option Nat)
    (second : Pattern α)
    (position : Position α) :
    (ends breaks
        (.seq
          (.group index (.repeated (.char accepts) least most))
          second)
        position).head? =
      (countdown least
        (cutOff most (position.run accepts))).findSome?
          fun count =>
            (ends breaks second
              { position.advance count with
                captures :=
                  (index, position.rest.take count) ::
                    position.captures }).head? := by
  rw [head?_ends_seq, ends, ends_repeated_char, List.map_map,
    List.findSome?_map]
  simp only [Function.comp_def, Position.textUpTo_advance,
    Position.advance_captures]

/- Where every count will do, the greatest is taken. -/
theorem findSome?_countdown_of_isSome
    {least top : Nat}
    {follow : Nat → Option β}
    (hFollow : ∀ count, (follow count).isSome) :
    (countdown least top).findSome? follow =
      if least ≤ top then follow top else none := by
  split
  · rename_i hLeast
    obtain ⟨others, hCounts⟩ := countdown_of_le hLeast
    obtain ⟨last, hLast⟩ :=
      Option.isSome_iff_exists.mp (hFollow top)
    rw [hCounts, List.findSome?_cons, hLast]
  · rename_i hLeast
    rw [countdown_of_lt (by omega)]
    rfl

/- Where only the whole run will do, it has to be in reach. -/
theorem findSome?_countdown
    {least run : Nat}
    {most : Option Nat}
    {follow : Nat → Option β}
    (hFollow : ∀ count < run, follow count = none) :
    (countdown least (cutOff most run)).findSome? follow =
      if least ≤ run ∧ cutOff most run = run then follow run
      else none := by
  have hCutOff : cutOff most run ≤ run := by
    cases most with
    | none => exact Nat.le_refl run
    | some bound => exact Nat.min_le_right bound run
  split
  · rename_i hReach
    obtain ⟨others, hCounts⟩ := countdown_of_le hReach.1
    rw [hReach.2, hCounts, List.findSome?_cons]
    cases hRun : follow run with
    | some last => rfl
    | none =>
        refine List.findSome?_eq_none_iff.mpr
          fun count hCount => ?_
        have hMember : count ∈ countdown least run := by
          rw [hCounts]
          exact List.mem_cons_of_mem run hCount
        obtain hLess | rfl :=
          Nat.lt_or_eq_of_le (mem_countdown.mp hMember).2
        · exact hFollow count hLess
        · exact hRun
  · rename_i hReach
    refine List.findSome?_eq_none_iff.mpr
      fun count hCount => ?_
    rw [mem_countdown] at hCount
    exact hFollow count (by omega)

end Regex

------------------------------------------------------------
-- Searching
------------------------------------------------------------

namespace Regex

variable {α : Type}
variable {breaks : LineBreaks α}
variable {pattern : Pattern α}

/- A search reports the preferred match at some place. -/
theorem searchFrom_eq_some
    {before text : List α}
    {last : Position α}
    (hSearch :
      searchFrom breaks pattern before text = some last) :
    ∃ skipped rest,
      text = skipped ++ rest ∧
        (ends breaks pattern
          ⟨skipped.reverse ++ before, rest, []⟩).head? =
            some last := by
  induction text generalizing before with
  | nil => exact ⟨[], [], rfl, hSearch⟩
  | cons symbol text ih =>
      rw [searchFrom] at hSearch
      cases hEnds :
          ends breaks pattern ⟨before, symbol :: text, []⟩ with
      | cons position others =>
          rw [hEnds] at hSearch
          exact ⟨[], symbol :: text, rfl, by
            simpa [hEnds] using hSearch⟩
      | nil =>
          rw [hEnds] at hSearch
          obtain ⟨skipped, rest, rfl, hLast⟩ := ih hSearch
          exact ⟨symbol :: skipped, rest, rfl, by
            simpa using hLast⟩

/- A match at the beginning is the one that is reported. -/
theorem search_of_head?
    {text : List α}
    {last : Position α}
    (hFirst :
      (ends breaks pattern ⟨[], text, []⟩).head? =
        some last) :
    search breaks pattern text = some last := by
  cases text with
  | nil => exact hFirst
  | cons symbol text =>
      cases hEnds :
          ends breaks pattern ⟨[], symbol :: text, []⟩ with
      | nil => simp [hEnds] at hFirst
      | cons position others =>
          rw [search, searchFrom, hEnds]
          simpa [hEnds] using hFirst

theorem isSome_fullMatch_iff {text : List α} :
    (fullMatch breaks pattern text).isSome ↔
      ∃ last ∈ ends breaks pattern ⟨[], text, []⟩,
        last.rest = [] := by
  rw [fullMatch, List.find?_isSome]
  simp

end Regex
