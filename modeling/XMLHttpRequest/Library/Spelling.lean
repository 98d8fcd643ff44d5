import Mathlib.Logic.Basic

/-
  Texts written symbol by symbol, where a symbol may have
  several words.

  Key definitions include:
    * `Spelling.Spells`

  Key theorems include:
    * `Spelling.Spells.fold`
    * `Spelling.spells_flatMap`
    * `Spelling.Spells.pieces`
-/

------------------------------------------------------------
-- Spelled Texts
------------------------------------------------------------

namespace Spelling

variable {α β γ : Type}

/- The text is made of a word for each symbol, in order. -/
inductive Spells
    (word : α → List β → Prop) :
    List α → List β → Prop
  | nil : Spells word [] []
  | cons
      {symbol : α}
      {written : List β}
      {symbols : List α}
      {text : List β} :
      word symbol written →
      Spells word symbols text →
      Spells word (symbol :: symbols) (written ++ text)

variable {word word' : α → List β → Prop}

/-
  A reader that takes the words of a text one by one reads
  the symbols that the text spells.
-/
theorem Spells.fold
    (read : List β → γ)
    (step : α → γ → γ)
    {symbols : List α}
    {text : List β}
    (hWord :
      ∀ symbol written rest, word symbol written →
        read (written ++ rest) = step symbol (read rest))
    (hSpells : Spells word symbols text) :
    read text = symbols.foldr step (read []) := by
  induction hSpells with
  | nil => rfl
  | cons hHead _ ih => rw [hWord _ _ _ hHead, ih]; rfl

/- More words allow more texts. -/
theorem Spells.mono
    {symbols : List α}
    {text : List β}
    (hWord :
      ∀ symbol written, written <:+: text →
        word symbol written → word' symbol written)
    (hSpells : Spells word symbols text) :
    Spells word' symbols text := by
  induction hSpells with
  | nil => exact .nil
  | @cons symbol written symbols text hHead _ ih =>
      refine .cons (hWord _ _ ?_ hHead) (ih ?_)
      · exact (List.prefix_append _ _).isInfix
      · intro symbol' written' hInfix
        exact hWord _ _
          (hInfix.trans (List.suffix_append _ _).isInfix)

/- Writing one word for every symbol spells the symbols. -/
theorem spells_flatMap
    (write : α → List β)
    (hWrite : ∀ symbol, word symbol (write symbol))
    (symbols : List α) :
    Spells word symbols (symbols.flatMap write) := by
  induction symbols with
  | nil => exact .nil
  | cons symbol symbols ih =>
      rw [List.flatMap_cons]
      exact .cons (hWrite symbol) ih

/- A spelled text falls into words. -/
theorem Spells.pieces
    {symbols : List α}
    {text : List β}
    (hSpells : Spells word symbols text) :
    ∃ pieces : List (List β),
      pieces.flatten = text ∧
        ∀ piece ∈ pieces, ∃ symbol, word symbol piece := by
  induction hSpells with
  | nil => exact ⟨[], rfl, List.forall_mem_nil _⟩
  | @cons symbol written symbols text hHead _ ih =>
      rcases ih with ⟨pieces, hText, hPieces⟩
      refine ⟨written :: pieces, ?_, ?_⟩
      · rw [List.flatten_cons, hText]
      · intro piece hPiece
        rcases List.mem_cons.mp hPiece with rfl | hPiece
        · exact ⟨symbol, hHead⟩
        · exact hPieces piece hPiece

end Spelling
