import Mathlib.Computability.Language
import XMLHttpRequest.Library.RegexRules

/-
  The words that a pattern spells.

  A plain pattern has no captures and no line anchors, and no
  repetition of something that can be empty.  The places at
  which it may end are then those after a word of its
  language, in some order, so that what it can match is a
  question about words alone.

  Key definitions include:
    * `Regex.Pattern.language`
    * `Regex.Pattern.Plain`

  Key theorems include:
    * `Regex.mem_ends_iff`
    * `Regex.isSome_fullMatch_anchored_iff`
-/

------------------------------------------------------------
-- Languages of Patterns
------------------------------------------------------------

namespace Regex

variable {α : Type}

/- The words with a number of rounds between two bounds. -/
def repetition
    (round : Language α)
    (least : Nat)
    (most : Option Nat) : Language α :=
  {word | ∃ count,
    least ≤ count ∧ (∀ bound ∈ most, count ≤ bound) ∧
      word ∈ round ^ count}

namespace Pattern

/- The words of a pattern, its anchors and groups aside. -/
def language : Pattern α → Language α
  | .char accepts =>
      {word | ∃ symbol, accepts symbol = true ∧
        word = [symbol]}
  | .lineStart => 1
  | .lineEnd => 1
  | .seq first second => first.language * second.language
  | .alt first second => first.language + second.language
  | .repeated body least most =>
      repetition body.language least most
  | .group _ body => body.language

def Plain : Pattern α → Prop
  | .char _ => True
  | .lineStart => False
  | .lineEnd => False
  | .seq first second => first.Plain ∧ second.Plain
  | .alt first second => first.Plain ∧ second.Plain
  | .repeated body _ _ => body.Plain ∧ [] ∉ body.language
  | .group _ _ => False

end Pattern

end Regex

------------------------------------------------------------
-- Words
------------------------------------------------------------

namespace Regex

variable {α : Type}
variable {word : List α}

theorem mem_language_char {accepts : α → Bool} :
    word ∈ (Pattern.char accepts).language ↔
      ∃ symbol, accepts symbol = true ∧ word = [symbol] :=
  Iff.rfl

theorem mem_language_seq {first second : Pattern α} :
    word ∈ (Pattern.seq first second).language ↔
      ∃ head ∈ first.language, ∃ tail ∈ second.language,
        head ++ tail = word :=
  Language.mem_mul

theorem mem_language_alt {first second : Pattern α} :
    word ∈ (Pattern.alt first second).language ↔
      word ∈ first.language ∨ word ∈ second.language :=
  Language.mem_add _ _ _

theorem mem_repetition
    {round : Language α}
    {least : Nat}
    {most : Option Nat} :
    word ∈ repetition round least most ↔
      ∃ count, least ≤ count ∧
        (∀ bound ∈ most, count ≤ bound) ∧
          word ∈ round ^ count :=
  Iff.rfl

/- A repetition is over, or it has one more round. -/
theorem mem_repetition_iff
    {round : Language α}
    {least : Nat}
    {most : Option Nat} :
    word ∈ repetition round least most ↔
      (least = 0 ∧ word = []) ∨
        (most ≠ some 0 ∧
          ∃ head ∈ round,
            ∃ tail ∈
                repetition round (least - 1)
                  (most.map (· - 1)),
              head ++ tail = word) := by
  rw [mem_repetition]
  constructor
  · rintro ⟨count, hLeast, hMost, hWord⟩
    cases count with
    | zero =>
        rw [pow_zero, Language.mem_one] at hWord
        exact Or.inl ⟨by omega, hWord⟩
    | succ count =>
        rw [pow_succ', Language.mem_mul] at hWord
        obtain ⟨head, hHead, tail, hTail, hWord⟩ := hWord
        refine Or.inr ⟨?_, head, hHead, tail, ?_, hWord⟩
        · rintro rfl
          exact absurd (hMost 0 rfl) (Nat.not_succ_le_zero _)
        · refine ⟨count, by omega, ?_, hTail⟩
          intro bound hBound
          rw [Option.mem_map] at hBound
          obtain ⟨former, hFormer, rfl⟩ := hBound
          have hFits := hMost former hFormer
          omega
  · rintro (⟨rfl, rfl⟩ | ⟨hMost, head, hHead, tail, hTail, rfl⟩)
    · exact ⟨0, Nat.le_refl 0, fun bound _ =>
        Nat.zero_le bound, by simp⟩
    · obtain ⟨count, hLeast, hBounds, hTail⟩ := hTail
      refine ⟨count + 1, by omega, ?_, ?_⟩
      · intro bound hBound
        have hFits :=
          hBounds (bound - 1) (Option.mem_map_of_mem _ hBound)
        have hBound' : bound ≠ 0 := by
          rintro rfl
          exact hMost hBound
        omega
      · rw [pow_succ', Language.mem_mul]
        exact ⟨head, hHead, tail, hTail, rfl⟩

/- What holds of no rounds and of one round more. -/
theorem repetition_induction
    {round : Language α}
    {motive : List α → Prop}
    (hNil : motive [])
    (hRound :
      ∀ {head tail}, head ∈ round → motive tail →
        motive (head ++ tail))
    {word : List α}
    (hWord : word ∈ repetition round 0 none) :
    motive word := by
  obtain ⟨count, -, -, hCount⟩ := hWord
  induction count generalizing word with
  | zero =>
      rw [pow_zero, Language.mem_one] at hCount
      exact hCount ▸ hNil
  | succ count ih =>
      rw [pow_succ', Language.mem_mul] at hCount
      obtain ⟨head, hHead, tail, hTail, rfl⟩ := hCount
      exact hRound hHead (ih hTail)

/- A repeated class spells the runs of that class. -/
theorem mem_language_repeated_char
    {accepts : α → Bool}
    {least : Nat} :
    word ∈
        (Pattern.repeated (.char accepts) least none).language ↔
      least ≤ word.length ∧
        ∀ symbol ∈ word, accepts symbol = true := by
  change word ∈ repetition _ least none ↔ _
  induction word generalizing least with
  | nil =>
      rw [mem_repetition_iff]
      constructor
      · rintro (⟨rfl, -⟩ | ⟨-, head, hHead, tail, -, hNil⟩)
        · simp
        · obtain ⟨symbol, -, rfl⟩ := hHead
          simp at hNil
      · rintro ⟨hLeast, -⟩
        exact Or.inl ⟨by simpa using hLeast, rfl⟩
  | cons symbol word ih =>
      rw [mem_repetition_iff]
      constructor
      · rintro (⟨-, hNil⟩ | ⟨-, head, hHead, tail, hTail, hWord⟩)
        · simp at hNil
        · obtain ⟨read, hRead, rfl⟩ := hHead
          rw [List.singleton_append] at hWord
          obtain ⟨rfl, rfl⟩ := List.cons.inj hWord
          obtain ⟨hLeast, hAll⟩ := ih.mp hTail
          refine ⟨by rw [List.length_cons]; omega, ?_⟩
          simpa [hRead] using hAll
      · rintro ⟨hLeast, hAll⟩
        rw [List.length_cons] at hLeast
        rw [List.forall_mem_cons] at hAll
        refine Or.inr ⟨by simp, [symbol],
          ⟨symbol, hAll.1, rfl⟩, word, ?_, rfl⟩
        exact ih.mpr ⟨by omega, hAll.2⟩

end Regex

------------------------------------------------------------
-- Ends and Words
------------------------------------------------------------

namespace Regex

variable {α : Type}
variable {breaks : LineBreaks α}

/- The ends that the words of a language account for. -/
def EndsAfter
    (words : Language α)
    (position last : Position α) : Prop :=
  ∃ word ∈ words, word <+: position.rest ∧
    last = position.advance word.length

theorem rest_eq_word_append
    {word : List α}
    {position : Position α}
    (hWord : word <+: position.rest) :
    position.rest =
      word ++ (position.advance word.length).rest := by
  obtain ⟨rest, hRest⟩ := hWord
  rw [Position.advance_rest, ← hRest, List.drop_left]

/- One word after another is a word of the product. -/
theorem endsAfter_mul_iff
    {first second : Language α}
    {position last : Position α} :
    EndsAfter (first * second) position last ↔
      ∃ next, EndsAfter first position next ∧
        EndsAfter second next last := by
  constructor
  · rintro ⟨word, hWord, hPrefix, rfl⟩
    obtain ⟨head, hHead, tail, hTail, rfl⟩ :=
      Language.mem_mul.mp hWord
    have hHeadPrefix : head <+: position.rest :=
      (List.prefix_append head tail).trans hPrefix
    refine ⟨position.advance head.length,
      ⟨head, hHead, hHeadPrefix, rfl⟩,
      tail, hTail, ?_, by simp⟩
    rw [rest_eq_word_append hHeadPrefix] at hPrefix
    exact (List.prefix_append_right_inj head).mp hPrefix
  · rintro ⟨next, ⟨head, hHead, hHeadPrefix, rfl⟩,
      tail, hTail, hTailPrefix, rfl⟩
    refine ⟨head ++ tail,
      Language.mem_mul.mpr ⟨head, hHead, tail, hTail, rfl⟩,
      ?_, by simp⟩
    rw [rest_eq_word_append hHeadPrefix]
    exact (List.prefix_append_right_inj head).mpr hTailPrefix

end Regex

namespace Regex

variable {α : Type}
variable {breaks : LineBreaks α}

theorem mem_ends_char_iff
    {accepts : α → Bool}
    {position last : Position α} :
    last ∈ ends breaks (.char accepts) position ↔
      EndsAfter (Pattern.char accepts).language position
        last := by
  cases hRest : position.rest with
  | nil =>
      rw [ends_char_nil breaks accepts hRest]
      constructor
      · intro hLast
        simp at hLast
      · rintro ⟨word, ⟨symbol, -, rfl⟩, hPrefix, -⟩
        simp [hRest] at hPrefix
  | cons symbol rest =>
      rw [ends_char_cons breaks accepts hRest]
      constructor
      · intro hLast
        by_cases hSymbol : accepts symbol = true
        · simp only [hSymbol, if_true,
            List.mem_singleton] at hLast
          exact ⟨[symbol], ⟨symbol, hSymbol, rfl⟩,
            by simp [hRest], hLast⟩
        · simp [hSymbol] at hLast
      · rintro ⟨word, ⟨read, hRead, rfl⟩, hPrefix, rfl⟩
        rw [hRest, List.cons_prefix_cons] at hPrefix
        obtain ⟨rfl, -⟩ := hPrefix
        simp [hRead]

/- A repetition ends at once, or after a round and others. -/
theorem endsAfter_repetition_iff
    {round : Language α}
    {least : Nat}
    {most : Option Nat}
    {position last : Position α} :
    EndsAfter (repetition round least most) position last ↔
      (most ≠ some 0 ∧
        EndsAfter
          (round * repetition round (least - 1)
            (most.map (· - 1))) position last) ∨
        (least = 0 ∧ last = position) := by
  constructor
  · rintro ⟨word, hWord, hPrefix, rfl⟩
    rcases mem_repetition_iff.mp hWord with
      ⟨hLeast, rfl⟩ | ⟨hMost, hProduct⟩
    · exact Or.inr ⟨hLeast, position.advance_zero⟩
    · exact Or.inl ⟨hMost, word,
        Language.mem_mul.mpr hProduct, hPrefix, rfl⟩
  · rintro (⟨hMost, word, hWord, hPrefix, rfl⟩ |
      ⟨hLeast, rfl⟩)
    · exact ⟨word, mem_repetition_iff.mpr
        (Or.inr ⟨hMost, Language.mem_mul.mp hWord⟩),
        hPrefix, rfl⟩
    · exact ⟨[], mem_repetition_iff.mpr
        (Or.inl ⟨hLeast, rfl⟩), List.nil_prefix,
        last.advance_zero.symm⟩

/- A word that is not empty leaves less to read. -/
theorem EndsAfter.length_lt
    {round : Language α}
    (hRound : [] ∉ round)
    {position next : Position α}
    (hNext : EndsAfter round position next) :
    next.rest.length < position.rest.length := by
  obtain ⟨word, hWord, hPrefix, rfl⟩ := hNext
  have hNonempty : word ≠ [] := by
    rintro rfl
    exact hRound hWord
  have hPositive := List.length_pos_iff.mpr hNonempty
  have hFits := hPrefix.length_le
  rw [Position.advance_rest, List.length_drop]
  omega

/-
  Rounds that consume something account for a repetition: the
  fuel, which is the length of the text, never runs out.
-/
theorem mem_repeatGreedy_iff
    {body : Position α → List (Position α)}
    {round : Language α}
    (hRound : [] ∉ round)
    (hBody : ∀ position last,
      last ∈ body position ↔ EndsAfter round position last)
    (fuel least : Nat)
    (most : Option Nat)
    (position last : Position α)
    (hFuel : position.rest.length < fuel) :
    last ∈ repeatGreedy body fuel least most position ↔
      EndsAfter (repetition round least most) position
        last := by
  induction fuel generalizing least most position with
  | zero => omega
  | succ fuel ih =>
      have hRounds :
          last ∈ (body position).flatMap (fun next =>
              if next.rest.length < position.rest.length then
                repeatGreedy body fuel (least - 1)
                  (most.map (· - 1)) next
              else if least ≤ 1 then [next] else []) ↔
            EndsAfter
              (round * repetition round (least - 1)
                (most.map (· - 1))) position last := by
        rw [List.mem_flatMap, endsAfter_mul_iff]
        apply exists_congr
        intro next
        rw [hBody]
        apply and_congr_right
        intro hNext
        have hLess := hNext.length_lt hRound
        rw [if_pos hLess]
        exact ih (least - 1) (most.map (· - 1)) next
          (by omega)
      have hOver :
          (last ∈ if least = 0 then [position] else []) ↔
            least = 0 ∧ last = position := by
        by_cases hLeast : least = 0
        · simp [hLeast]
        · simp [hLeast]
      rw [repeatGreedy, List.mem_append, hOver,
        endsAfter_repetition_iff]
      by_cases hMost : most = some 0
      · simp [hMost]
      · rw [if_neg hMost, hRounds, and_iff_right hMost]

/- A plain pattern ends after the words of its language. -/
theorem mem_ends_iff
    {pattern : Pattern α}
    (hPlain : pattern.Plain)
    (position last : Position α) :
    last ∈ ends breaks pattern position ↔
      EndsAfter pattern.language position last := by
  induction pattern generalizing position last with
  | char accepts => exact mem_ends_char_iff
  | lineStart => exact hPlain.elim
  | lineEnd => exact hPlain.elim
  | seq first second ihFirst ihSecond =>
      rw [ends, List.mem_flatMap, Pattern.language,
        endsAfter_mul_iff]
      apply exists_congr
      intro next
      rw [ihFirst hPlain.1, ihSecond hPlain.2]
  | alt first second ihFirst ihSecond =>
      rw [ends, List.mem_append, ihFirst hPlain.1,
        ihSecond hPlain.2]
      constructor
      · rintro (⟨word, hWord, hEnd⟩ | ⟨word, hWord, hEnd⟩)
        · exact ⟨word, mem_language_alt.mpr (Or.inl hWord),
            hEnd⟩
        · exact ⟨word, mem_language_alt.mpr (Or.inr hWord),
            hEnd⟩
      · rintro ⟨word, hWord, hEnd⟩
        exact (mem_language_alt.mp hWord).imp
          (fun hFirst => ⟨word, hFirst, hEnd⟩)
          (fun hSecond => ⟨word, hSecond, hEnd⟩)
  | repeated body least most ih =>
      rw [ends]
      exact mem_repeatGreedy_iff hPlain.2
        (fun position last => ih hPlain.1 position last)
        _ least most position last (Nat.lt_succ_self _)
  | group index body => exact hPlain.elim

theorem ends_seq_assoc
    (first second third : Pattern α)
    (position : Position α) :
    ends breaks (.seq (.seq first second) third) position =
      ends breaks (.seq first (.seq second third))
        position := by
  simp only [ends, List.flatMap_assoc]

/- Between two anchors a plain pattern covers its words. -/
theorem isSome_fullMatch_anchored_iff
    {pattern : Pattern α}
    (hPlain : pattern.Plain)
    {text : List α}
    (hStart : breaks.startsLine [] text = true)
    (hEnd : ∀ before, breaks.endsLine before [] = true) :
    (fullMatch breaks
        (.seq .lineStart (.seq pattern .lineEnd))
        text).isSome ↔
      text ∈ pattern.language := by
  rw [isSome_fullMatch_iff, ends_seq_lineStart,
    if_pos hStart, ends]
  constructor
  · rintro ⟨last, hLast, hRest⟩
    obtain ⟨next, hNext, hLast⟩ := List.mem_flatMap.mp hLast
    obtain ⟨word, hWord, hPrefix, rfl⟩ :=
      (mem_ends_iff hPlain _ next).mp hNext
    have hSame :
        last = Position.advance ⟨[], text, []⟩ word.length := by
      rw [ends] at hLast
      split at hLast
      · exact List.mem_singleton.mp hLast
      · simp at hLast
    have hText := rest_eq_word_append hPrefix
    rw [← hSame, hRest, List.append_nil] at hText
    change text = word at hText
    exact hText ▸ hWord
  · intro hText
    let last : Position α :=
      Position.advance ⟨[], text, []⟩ text.length
    have hRest : last.rest = [] := List.drop_length
    have hNext :
        last ∈ ends breaks pattern ⟨[], text, []⟩ :=
      (mem_ends_iff hPlain _ last).mpr
        ⟨text, hText, List.prefix_refl text, rfl⟩
    refine ⟨last, List.mem_flatMap.mpr
      ⟨last, hNext, ?_⟩, hRest⟩
    rw [ends, hRest, hEnd, if_pos rfl]
    exact List.mem_singleton_self last

end Regex
