import Mathlib.Logic.Basic

/-
  Backtracking regular expressions with captures, over any
  alphabet.

  `Regex.ends` lists the positions at which a match may end,
  in the order in which a backtracking matcher tries them:
  alternatives from left to right and repetitions greedily.
  The first of them that suits what follows is the match that
  such a matcher reports.

  Key definitions include:
    * `Regex.Pattern`
    * `Regex.Position`
    * `Regex.ends`
    * `Regex.search`
    * `Regex.fullMatch`
-/

------------------------------------------------------------
-- Patterns and Positions
------------------------------------------------------------

namespace Regex

variable {α : Type}

inductive Pattern (α : Type)
  | char (accepts : α → Bool)
  | lineStart
  | lineEnd
  | seq (first second : Pattern α)
  | alt (first second : Pattern α)
  | repeated
      (body : Pattern α)
      (least : Nat)
      (most : Option Nat)
  | group (index : Nat) (body : Pattern α)

/-
  A place in the subject: what stands before it, nearest
  first, what follows, and the captures made so far.
-/
structure Position (α : Type) where
  before : List α
  rest : List α
  captures : List (Nat × List α)

/- Where lines begin and end, from the two sides of a place. -/
structure LineBreaks (α : Type) where
  startsLine : List α → List α → Bool
  endsLine : List α → List α → Bool

/- The text of a capture, empty when the group took no part. -/
def Position.capture
    (position : Position α)
    (index : Nat) : List α :=
  (position.captures.lookup index).getD []

/- The text between two places of one subject. -/
def Position.textUpTo
    (first last : Position α) : List α :=
  (last.before.take
    (last.before.length - first.before.length)).reverse

end Regex

------------------------------------------------------------
-- Matching
------------------------------------------------------------

namespace Regex

variable {α : Type}

/-
  Repeat greedily between `least` and `most` times.  A round
  that consumes nothing is not followed by another one, so
  the length of the subject bounds the rounds.
-/
def repeatGreedy
    (body : Position α → List (Position α)) :
    Nat → Nat → Option Nat → Position α →
      List (Position α)
  | 0, least, _, position =>
      if least = 0 then [position] else []
  | fuel + 1, least, most, position =>
      (if most = some 0 then []
        else (body position).flatMap fun next =>
          if next.rest.length < position.rest.length then
            repeatGreedy body fuel (least - 1)
              (most.map (· - 1)) next
          else if least ≤ 1 then [next] else []) ++
        if least = 0 then [position] else []

/- The ends of a match, in the matcher's order of preference. -/
def ends
    (breaks : LineBreaks α) :
    Pattern α → Position α → List (Position α)
  | .char accepts, position =>
      match position.rest with
      | [] => []
      | symbol :: rest =>
          if accepts symbol then
            [{ position with
                before := symbol :: position.before
                rest := rest }]
          else []
  | .lineStart, position =>
      if breaks.startsLine position.before position.rest then
        [position]
      else []
  | .lineEnd, position =>
      if breaks.endsLine position.before position.rest then
        [position]
      else []
  | .seq first second, position =>
      (ends breaks first position).flatMap
        (ends breaks second)
  | .alt first second, position =>
      ends breaks first position ++
        ends breaks second position
  | .repeated body least most, position =>
      repeatGreedy (ends breaks body)
        (position.rest.length + 1) least most position
  | .group index body, position =>
      (ends breaks body position).map fun last =>
        { last with
          captures :=
            (index, position.textUpTo last) ::
              last.captures }

/- The preferred match at the leftmost place that has one. -/
def searchFrom
    (breaks : LineBreaks α)
    (pattern : Pattern α) :
    List α → List α → Option (Position α)
  | before, [] => (ends breaks pattern ⟨before, [], []⟩).head?
  | before, symbol :: rest =>
      match ends breaks pattern
          ⟨before, symbol :: rest, []⟩ with
      | position :: _ => some position
      | [] =>
          searchFrom breaks pattern (symbol :: before) rest

def search
    (breaks : LineBreaks α)
    (pattern : Pattern α)
    (subject : List α) : Option (Position α) :=
  searchFrom breaks pattern [] subject

/- The preferred match that covers the whole subject. -/
def fullMatch
    (breaks : LineBreaks α)
    (pattern : Pattern α)
    (subject : List α) : Option (Position α) :=
  (ends breaks pattern ⟨[], subject, []⟩).find?
    (·.rest.isEmpty)

end Regex
