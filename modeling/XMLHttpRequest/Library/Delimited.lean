import Mathlib.Data.List.Infix

/-
  Texts cut at a mark of two symbols.

  Key definitions include:
    * `Delimited.cut`
    * `Delimited.cutEach`

  Key theorems include:
    * `Delimited.cut_append`
    * `Delimited.cutEach_append`
    * `Delimited.cutEach_flatMap`
-/

------------------------------------------------------------
-- Cuts
------------------------------------------------------------

namespace Delimited

variable {α : Type*}
variable [DecidableEq α]

/- The two sides of the first mark, if there is one. -/
def cut (a b : α) : List α → Option (List α × List α)
  | x :: y :: rest =>
      if x = a ∧ y = b then some ([], rest)
      else
        (cut a b (y :: rest)).map fun sides =>
          (x :: sides.1, sides.2)
  | _ => none

/- Put a symbol before the first of some pieces. -/
def extendFirst (x : α) : List (List α) → List (List α)
  | [] => [[x]]
  | piece :: pieces => (x :: piece) :: pieces

/- The pieces between the marks, and before and behind them. -/
def cutEach (a b : α) : List α → List (List α)
  | x :: y :: rest =>
      if x = a ∧ y = b then [] :: cutEach a b rest
      else extendFirst x (cutEach a b (y :: rest))
  | text => [text]

end Delimited

------------------------------------------------------------
-- Texts Without a Mark
------------------------------------------------------------

namespace Delimited

variable {α : Type*}

/- The mark does not occur in the text. -/
def NoMark (a b : α) (text : List α) : Prop :=
  ¬ [a, b] <:+: text

variable {a b : α}

/- The next symbol of a text without a mark. -/
theorem NoMark.cons
    {x : α}
    {text : List α}
    (hNone : NoMark a b (x :: text)) :
    NoMark a b text ∧
      ∀ rest, ¬ (x = a ∧ text = b :: rest) := by
  constructor
  · exact fun hOccurs => hNone (List.infix_cons hOccurs)
  · rintro rest ⟨rfl, rfl⟩
    exact hNone ⟨[], rest, rfl⟩

/- A text without the first symbol has no mark. -/
theorem noMark_of_not_mem
    {text : List α}
    (hNone : a ∉ text) :
    NoMark a b text :=
  fun hOccurs => hNone (hOccurs.subset List.mem_cons_self)

/- No mark begins at the end of a text without one. -/
theorem not_mark
    (hDifferent : a ≠ b)
    {x y : α}
    {front rest text : List α}
    (hNone : NoMark a b (x :: front))
    (hText : front ++ a :: b :: rest = y :: text) :
    ¬ (x = a ∧ y = b) := by
  rintro ⟨rfl, rfl⟩
  cases front with
  | nil =>
      cases hText
      exact hDifferent rfl
  | cons z front =>
      cases hText
      exact hNone.cons.2 front ⟨rfl, rfl⟩

variable [DecidableEq α]

theorem cut_append
    (hDifferent : a ≠ b)
    {front : List α}
    (hNone : NoMark a b front)
    (rest : List α) :
    cut a b (front ++ a :: b :: rest) =
      some (front, rest) := by
  induction front with
  | nil => simp [cut]
  | cons x front ih =>
      have hRest := ih hNone.cons.1
      cases hText : front ++ a :: b :: rest with
      | nil => simp at hText
      | cons y text =>
          rw [List.cons_append, hText, cut,
            if_neg (not_mark hDifferent hNone hText), ← hText,
            hRest]
          rfl

theorem cutEach_append
    (hDifferent : a ≠ b)
    {piece : List α}
    (hNone : NoMark a b piece)
    (rest : List α) :
    cutEach a b (piece ++ a :: b :: rest) =
      piece :: cutEach a b rest := by
  induction piece with
  | nil => simp [cutEach]
  | cons x piece ih =>
      have hRest := ih hNone.cons.1
      cases hText : piece ++ a :: b :: rest with
      | nil => simp at hText
      | cons y text =>
          rw [List.cons_append, hText, cutEach,
            if_neg (not_mark hDifferent hNone hText), ← hText,
            hRest]
          rfl

/- Pieces that end in marks are found again. -/
theorem cutEach_flatMap
    (hDifferent : a ≠ b)
    {pieces : List (List α)}
    (hNone : ∀ piece ∈ pieces, NoMark a b piece) :
    cutEach a b (pieces.flatMap (· ++ [a, b])) =
      pieces ++ [[]] := by
  induction pieces with
  | nil => rfl
  | cons piece pieces ih =>
      have hRest :=
        ih fun p hP => hNone p (List.mem_cons_of_mem _ hP)
      have hFirst := hNone piece List.mem_cons_self
      rw [List.flatMap_cons, List.append_assoc]
      exact (cutEach_append hDifferent hFirst _).trans
        (congrArg (piece :: ·) hRest)

end Delimited
