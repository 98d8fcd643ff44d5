import Mathlib.Data.List.TakeWhile
import XMLHttpRequest.Library.RegexLanguage
import XMLHttpRequest.Url.Uri

/-
  The texts that `protoIpPortUrlRegex` matches.

  A match is a protocol of four or five letters, an address
  that reaches as far as its class does, and all the rest.

  Key definitions include:
    * `Network.UriText`

  Key theorems include:
    * `Network.captures_of_uriText`
    * `Network.uriText_of_captures`
    * `Network.proccessUri_text`
    * `Network.uriText_of_proccessUri`
-/

------------------------------------------------------------
-- Character Classes
------------------------------------------------------------

namespace Network

/- `[0-9a-z\.:-]` -/
def addressCharacters : Bytes :=
  digits ++ lowerLetters ++ ascii ".:-"

def isProtocolChar (c : UInt8) : Bool :=
  (ascii "https").contains c

def isAddressChar (c : UInt8) : Bool :=
  addressCharacters.contains c

theorem oneOf_eq_contains (accepted : Bytes) :
    oneOf accepted = .char fun c => accepted.contains c := by
  rw [oneOf]
  congr 1
  funext c
  exact (List.contains_eq_mem c accepted).symm

/- The bytes from `first` on. -/
def byteRange (first count : Nat) : Bytes :=
  (List.range' first count).map UInt8.ofNat

theorem mem_byteRange_iff
    {first count : Nat}
    (hFits : first + count ≤ 256)
    {c : UInt8} :
    c ∈ byteRange first count ↔
      first ≤ c.toNat ∧ c.toNat < first + count := by
  rw [byteRange, List.mem_map]
  simp only [List.mem_range'_1]
  constructor
  · rintro ⟨n, hRange, rfl⟩
    have hByte : n < UInt8.size :=
      Nat.lt_of_lt_of_le hRange.2 hFits
    rw [UInt8.toNat_ofNat_of_lt' hByte]
    exact hRange
  · intro hRange
    exact ⟨c.toNat, hRange, UInt8.ofNat_toNat⟩

theorem lowerLetters_eq : lowerLetters = byteRange 97 26 := by
  decide

theorem upperLetters_eq : upperLetters = byteRange 65 26 := by
  decide

theorem digits_eq : digits = byteRange 48 10 := by
  decide

theorem isProtocolChar_iff {c : UInt8} :
    isProtocolChar c = true ↔
      c.toNat = 104 ∨ c.toNat = 116 ∨ c.toNat = 112 ∨
        c.toNat = 115 := by
  have hLetters : ascii "https" = [104, 116, 116, 112, 115] := by
    decide
  rw [isProtocolChar, List.contains_iff_mem, hLetters]
  simp [← UInt8.toNat_inj]

theorem isAddressChar_iff {c : UInt8} :
    isAddressChar c = true ↔
      (48 ≤ c.toNat ∧ c.toNat ≤ 58) ∨
        (97 ≤ c.toNat ∧ c.toNat ≤ 122) ∨
        c.toNat = 45 ∨ c.toNat = 46 := by
  have hOthers : ascii ".:-" = [46, 58, 45] := by decide
  rw [isAddressChar, List.contains_iff_mem, addressCharacters,
    lowerLetters_eq, digits_eq, hOthers, List.mem_append,
    List.mem_append, mem_byteRange_iff (by decide),
    mem_byteRange_iff (by decide)]
  simp only [List.mem_cons, List.not_mem_nil, or_false,
    ← UInt8.toNat_inj, UInt8.reduceToNat]
  omega

end Network

------------------------------------------------------------
-- Texts That Match
------------------------------------------------------------

namespace Network

/- A protocol, an address as long as it can be, and a tail. -/
structure UriText where
  protocol : Bytes
  address : Bytes
  tail : Bytes
  protocol_chars : ∀ c ∈ protocol, isProtocolChar c = true
  protocol_length :
    4 ≤ protocol.length ∧ protocol.length ≤ 5
  address_chars : ∀ c ∈ address, isAddressChar c = true
  address_length : 3 ≤ address.length
  tail_head : ∀ c ∈ tail.head?, isAddressChar c = false

namespace UriText

variable (text : UriText)

/- What follows the protocol. -/
def afterProtocol : Bytes :=
  ascii "://" ++ (text.address ++ text.tail)

def bytes : Bytes :=
  text.protocol ++ text.afterProtocol

/- The captures of a match, latest first. -/
def captures : List (Nat × Bytes) :=
  [(3, text.tail), (2, text.address), (1, text.protocol)]

/- `proccessUri` on the captures. -/
def elements : Elements where
  addr := (hostAndPort text.address).1
  port :=
    if (hostAndPort text.address).2 = [] then
      if text.protocol = ascii "https" then ascii "443"
      else ascii "80"
    else (hostAndPort text.address).2
  protocol := text.protocol
  urn := text.tail

end UriText

/- A run of a class ends where its text does. -/
theorem takeWhile_append_of_head?
    {accepts : UInt8 → Bool}
    {run rest : Bytes}
    (hRun : ∀ c ∈ run, accepts c = true)
    (hRest : ∀ c ∈ rest.head?, accepts c = false) :
    (run ++ rest).takeWhile accepts = run := by
  rw [List.takeWhile_append_of_pos hRun]
  cases rest with
  | nil => simp
  | cons c rest =>
      have hStop := hRest c rfl
      simp [hStop]

theorem head?_dropWhile_of_mem
    {accepts : UInt8 → Bool}
    {text : Bytes}
    {c : UInt8}
    (hHead : c ∈ (text.dropWhile accepts).head?) :
    accepts c = false := by
  cases hDrop : text.dropWhile accepts with
  | nil => simp [hDrop] at hHead
  | cons first rest =>
      have hFirst : first = c := by simpa [hDrop] using hHead
      have hNot := List.head_dropWhile_not
        (p := accepts) (l := text) (by simp [hDrop])
      simpa [hDrop, hFirst] using hNot

end Network

------------------------------------------------------------
-- Matching the Pattern
------------------------------------------------------------

namespace Network

open Regex

/- The part of the pattern behind the protocol. -/
def protocolFollow : Pattern UInt8 :=
  inOrder
    [literal ':', literal '/', literal '/',
      regexAddressOrHostPort, addressTail]

theorem head?_ends_anything (position : Position UInt8) :
    (ends boostLineBreaks
        (.repeated (.char fun _ => true) 0 none)
        position).head? =
      some (position.advance position.rest.length) := by
  have hRun :
      position.run (fun _ => true) =
        position.rest.length := by
    rw [Position.run, List.takeWhile_eq_self_iff.mpr]
    simp
  obtain ⟨others, hCounts⟩ :=
    countdown_of_le (Nat.zero_le position.rest.length)
  rw [ends_repeated_char, hRun]
  simp only [cutOff, hCounts, List.map_cons, List.head?_cons]

/- The tail is all that is left, with a slash or without. -/
theorem head?_ends_addressTail (position : Position UInt8) :
    (ends boostLineBreaks addressTail position).head? =
      some
        { position.advance position.rest.length with
          captures :=
            (3, position.rest) :: position.captures } := by
  have hInner :
      (ends boostLineBreaks
          (.seq (.repeated (literal '/') 0 (some 1))
            (.repeated (.char fun _ => true) 0 none))
          position).head? =
        some (position.advance position.rest.length) := by
    rw [literal, oneOf, head?_ends_seq_repeated]
    simp only [head?_ends_anything, Position.advance_advance,
      Position.advance_rest, List.length_drop]
    rw [findSome?_countdown_of_isSome (fun _ => rfl),
      if_pos (Nat.zero_le _)]
    have hRun := position.run_le_length fun c =>
      decide (c ∈ ascii (Char.toString '/'))
    congr 2
    simp only [cutOff]
    omega
  rw [addressTail, head?_ends_group, hInner, Option.map_some,
    Position.textUpTo_advance, List.take_length,
    Position.advance_captures]

/- The address is the whole of its run, if that is enough. -/
theorem head?_ends_address (position : Position UInt8) :
    (ends boostLineBreaks
        (.seq regexAddressOrHostPort addressTail)
        position).head?.map (·.captures) =
      if 3 ≤ position.run isAddressChar then
        some
          ((3, position.rest.drop
              (position.run isAddressChar)) ::
            (2, position.rest.take
              (position.run isAddressChar)) ::
            position.captures)
      else none := by
  rw [regexAddressOrHostPort, oneOf_eq_contains,
    head?_ends_seq_group]
  simp only [head?_ends_addressTail, Position.advance_rest]
  rw [findSome?_countdown_of_isSome (fun _ => rfl)]
  change (if 3 ≤ position.run isAddressChar then _ else _ :
    Option (Position UInt8)).map _ = _
  split
  · rfl
  · rfl

/- A symbol inside a run is of its class. -/
theorem accepts_of_mem_drop
    {accepts : UInt8 → Bool}
    {text : Bytes}
    {count : Nat}
    (hCount : count < (text.takeWhile accepts).length)
    {c : UInt8}
    (hHead : c ∈ (text.drop count).head?) :
    accepts c = true := by
  have hText : text[count]? = some c := by
    simpa [List.head?_drop] using hHead
  have hRun : (text.takeWhile accepts)[count]? = some c := by
    rw [← hText, ← List.getElem?_append_left hCount,
      List.takeWhile_append_dropWhile]
  exact List.mem_takeWhile_imp (List.mem_of_getElem? hRun)

theorem not_colon_of_isProtocolChar
    {c : UInt8}
    (hLetter : isProtocolChar c = true) :
    decide (c ∈ ascii (Char.toString ':')) = false := by
  have hColon : ascii (Char.toString ':') = [58] := by decide
  rw [hColon, decide_eq_false_iff_not, List.mem_singleton]
  rintro rfl
  revert hLetter
  decide

/- The protocol stands where a line starts. -/
theorem ends_regexGroupProtocol (position : Position UInt8) :
    ends boostLineBreaks regexGroupProtocol position =
      if boostLineBreaks.startsLine position.before
          position.rest then
        ends boostLineBreaks
          (.group 1
            (.repeated (.char isProtocolChar) 4 (some 5)))
          position
      else [] := by
  rw [regexGroupProtocol, oneOf_eq_contains, ends,
    ends_seq_lineStart]
  by_cases hStart :
      boostLineBreaks.startsLine position.before
        position.rest = true
  · rw [if_pos hStart, if_pos hStart]
    rfl
  · rw [if_neg hStart, if_neg hStart]
    rfl

/-
  A protocol letter is no colon, so that the colon has to
  stand right behind the run of them.
-/
theorem head?_ends_protocol
    (before text : Bytes) :
    (ends boostLineBreaks protoIpPortUrlRegex
        ⟨before, text, []⟩).head? =
      if boostLineBreaks.startsLine before text ∧
          4 ≤ (text.takeWhile isProtocolChar).length ∧
          (text.takeWhile isProtocolChar).length ≤ 5 then
        (ends boostLineBreaks protocolFollow
          { (⟨before, text, []⟩ :
              Position UInt8).advance
              (text.takeWhile isProtocolChar).length with
            captures :=
              [(1, text.take
                (text.takeWhile isProtocolChar).length)] }).head?
      else none := by
  let position : Position UInt8 := ⟨before, text, []⟩
  let run := (text.takeWhile isProtocolChar).length
  have hFollow :
      ∀ count < run,
        (ends boostLineBreaks protocolFollow
          { position.advance count with
            captures := [(1, text.take count)] }).head? =
          none := by
    intro count hCount
    have hColon :
        ∀ c ∈ (text.drop count).head?,
          decide (c ∈ ascii (Char.toString ':')) = false := by
      intro c hHead
      exact not_colon_of_isProtocolChar
        (accepts_of_mem_drop hCount hHead)
    change
      (ends boostLineBreaks (.seq (.char _) _) _).head? = none
    rw [ends_seq_char_of_not boostLineBreaks hColon]
    rfl
  change (ends boostLineBreaks
    (.seq regexGroupProtocol protocolFollow)
    position).head? = _
  rw [head?_ends_seq, ends_regexGroupProtocol]
  by_cases hStart :
      boostLineBreaks.startsLine before text = true
  · have hRun : cutOff (some 5) run = run ↔ run ≤ 5 := by
      simp [cutOff]
    rw [if_pos hStart, ← head?_ends_seq, head?_ends_seq_group]
    change (countdown 4 (cutOff (some 5) run)).findSome? _ = _
    rw [findSome?_countdown hFollow]
    simp only [hStart, true_and, hRun]
    rfl
  · rw [if_neg hStart, if_neg (fun h => hStart h.1)]
    rfl

end Network

------------------------------------------------------------
-- What a Match Captures
------------------------------------------------------------

namespace Network

open Regex

theorem ends_seq_literal
    {c : Char}
    {byte : UInt8}
    (hByte : ascii c.toString = [byte])
    (second : Pattern UInt8)
    (position : Position UInt8) :
    ends boostLineBreaks (.seq (literal c) second) position =
      if position.rest.head? = some byte then
        ends boostLineBreaks second (position.advance 1)
      else [] := by
  rw [literal, oneOf, hByte]
  cases hRest : position.rest with
  | nil =>
      rw [ends_seq_char_of_not boostLineBreaks
        (by simp [hRest])]
      rfl
  | cons symbol rest =>
      by_cases hSymbol : symbol = byte
      · subst hSymbol
        rw [ends_seq_char_cons boostLineBreaks hRest (by simp)]
        simp
      · rw [ends_seq_char_of_not boostLineBreaks
          (by simpa [hRest] using hSymbol)]
        simp [hSymbol]

theorem ends_protocolFollow (position : Position UInt8) :
    ends boostLineBreaks protocolFollow position =
      if ascii "://" <+: position.rest then
        ends boostLineBreaks
          (.seq regexAddressOrHostPort addressTail)
          (position.advance 3)
      else [] := by
  have hMark : ascii "://" = [58, 47, 47] := by decide
  have hColon : ascii (Char.toString ':') = [58] := by decide
  have hSlash : ascii (Char.toString '/') = [47] := by decide
  change ends boostLineBreaks
    (.seq (literal ':')
      (.seq (literal '/')
        (.seq (literal '/')
          (.seq regexAddressOrHostPort addressTail))))
    position = _
  rw [ends_seq_literal hColon, ends_seq_literal hSlash,
    ends_seq_literal hSlash, hMark]
  simp only [Position.advance_advance, Position.advance_rest]
  rcases position.rest with
    _ | ⟨first, _ | ⟨second, _ | ⟨third, rest⟩⟩⟩
  · simp
  · simp
  · simp
  · by_cases hFirst : first = 58
    · by_cases hSecond : second = 47
      · simp [hFirst, hSecond, eq_comm]
      · simp [hFirst, hSecond, eq_comm]
    · simp [hFirst, eq_comm]

/- A text of the form is matched where a line starts. -/
theorem captures_of_uriText
    (text : UriText)
    {before : Bytes}
    (hStart :
      boostLineBreaks.startsLine before text.bytes = true) :
    (ends boostLineBreaks protoIpPortUrlRegex
        ⟨before, text.bytes, []⟩).head?.map (·.captures) =
      some text.captures := by
  have hMark :
      ∀ c ∈ text.afterProtocol.head?,
        isProtocolChar c = false := by
    intro c hHead
    have hColon : c = 58 := by
      simpa [UriText.afterProtocol, ascii, eq_comm] using hHead
    subst hColon
    decide
  have hProtocol :
      text.bytes.takeWhile isProtocolChar = text.protocol :=
    takeWhile_append_of_head? text.protocol_chars hMark
  have hTake :
      text.bytes.take text.protocol.length = text.protocol :=
    List.take_left' rfl
  have hDrop :
      text.bytes.drop text.protocol.length =
        text.afterProtocol :=
    List.drop_left' rfl
  have hAddress :
      (text.address ++ text.tail).takeWhile isAddressChar =
        text.address :=
    takeWhile_append_of_head? text.address_chars
      text.tail_head
  have hRest :
      text.afterProtocol.drop 3 =
        text.address ++ text.tail :=
    List.drop_left' (by decide)
  rw [head?_ends_protocol, hProtocol,
    if_pos ⟨hStart, text.protocol_length⟩,
    ends_protocolFollow]
  rw [if_pos (by
    rw [Position.advance_rest, hDrop]
    exact List.prefix_append _ _)]
  rw [head?_ends_address]
  simp only [Position.run, Position.advance_rest, hDrop,
    hRest, hAddress, hTake, Position.advance_captures]
  rw [if_pos text.address_length, List.take_left' rfl,
    List.drop_left' rfl]
  rfl

theorem take_length_takeWhile
    (accepts : UInt8 → Bool)
    (text : Bytes) :
    text.take (text.takeWhile accepts).length =
      text.takeWhile accepts :=
  (List.prefix_iff_eq_take.mp
    (List.takeWhile_prefix accepts)).symm

theorem drop_length_takeWhile
    (accepts : UInt8 → Bool)
    (text : Bytes) :
    text.drop (text.takeWhile accepts).length =
      text.dropWhile accepts := by
  have hDrop :
      (text.takeWhile accepts ++ text.dropWhile accepts).drop
          (text.takeWhile accepts).length =
        text.dropWhile accepts :=
    List.drop_left' rfl
  rwa [List.takeWhile_append_dropWhile] at hDrop

/- Whatever is matched is a text of the form. -/
theorem uriText_of_captures
    {before text : Bytes}
    {last : Position UInt8}
    (hLast :
      (ends boostLineBreaks protoIpPortUrlRegex
        ⟨before, text, []⟩).head? = some last) :
    ∃ form : UriText,
      text = form.bytes ∧
        boostLineBreaks.startsLine before text = true ∧
          last.captures = form.captures := by
  rw [head?_ends_protocol] at hLast
  split at hLast
  · rename_i hProtocol
    rw [ends_protocolFollow] at hLast
    split at hLast
    · rename_i hMark
      have hCaptures := congrArg
        (Option.map Position.captures) hLast
      rw [head?_ends_address] at hCaptures
      split at hCaptures
      · rename_i hAddress
        simp only [Position.advance_rest, Position.run,
          drop_length_takeWhile, take_length_takeWhile,
          Position.advance_captures, Option.map_some,
          Option.some.injEq] at hMark hAddress hCaptures
        obtain ⟨rest, hRest⟩ := hMark
        have hDrop :
            (text.dropWhile isProtocolChar).drop 3 = rest := by
          rw [← hRest]
          exact List.drop_left' (by decide)
        rw [hDrop] at hAddress hCaptures
        refine
          ⟨{ protocol := text.takeWhile isProtocolChar
             address := rest.takeWhile isAddressChar
             tail := rest.dropWhile isAddressChar
             protocol_chars := fun c hMem =>
               List.mem_takeWhile_imp hMem
             protocol_length := hProtocol.2
             address_chars := fun c hMem =>
               List.mem_takeWhile_imp hMem
             address_length := hAddress
             tail_head := fun c hHead =>
               head?_dropWhile_of_mem hHead },
            ?_, hProtocol.1, hCaptures.symm⟩
        simp only [UriText.bytes, UriText.afterProtocol,
          List.takeWhile_append_dropWhile, hRest]
      · simp at hCaptures
    · simp at hLast
  · simp at hLast

end Network

------------------------------------------------------------
-- What a Search Finds
------------------------------------------------------------

namespace Network

open Regex

namespace UriText

variable (text : UriText)

@[simp]
theorem elements_protocol :
    text.elements.protocol = text.protocol :=
  rfl

@[simp]
theorem elements_urn : text.elements.urn = text.tail :=
  rfl

theorem protocol_ne_nil : text.protocol ≠ [] := by
  have hLength := text.protocol_length
  intro hNil
  simp [hNil] at hLength

theorem address_ne_nil : text.address ≠ [] := by
  have hLength := text.address_length
  intro hNil
  simp [hNil] at hLength

theorem bytes_ne_nil : text.bytes ≠ [] := by
  simp [bytes, text.protocol_ne_nil]

end UriText

theorem proccessUri_eq_of_search
    {uri : Bytes}
    {text : UriText}
    {last : Position UInt8}
    (hUri : uri ≠ [])
    (hSearch :
      search boostLineBreaks protoIpPortUrlRegex uri =
        some last)
    (hCaptures : last.captures = text.captures) :
    proccessUri uri = some text.elements := by
  have hProtocol : last.capture 1 = text.protocol := by
    rw [Position.capture, hCaptures]
    rfl
  have hAddress : last.capture 2 = text.address := by
    rw [Position.capture, hCaptures]
    rfl
  have hTail : last.capture 3 = text.tail := by
    rw [Position.capture, hCaptures]
    rfl
  rw [proccessUri, if_neg hUri, hSearch]
  simp only [Option.bind_some, hProtocol, hAddress, hTail,
    text.protocol_ne_nil, text.address_ne_nil]
  rfl

/- A text of the form is taken apart as its form says. -/
theorem proccessUri_text (text : UriText) :
    proccessUri text.bytes = some text.elements := by
  have hStart :
      boostLineBreaks.startsLine [] text.bytes = true :=
    rfl
  have hCaptures := captures_of_uriText text hStart
  obtain ⟨last, hLast, hSame⟩ :=
    Option.map_eq_some_iff.mp hCaptures
  exact proccessUri_eq_of_search text.bytes_ne_nil
    (search_of_head? hLast) hSame

/-
  Whatever is accepted is a text of the form behind a part
  that is skipped, after which a line starts.
-/
theorem uriText_of_proccessUri
    {uri : Bytes}
    {elements : Elements}
    (hUri : proccessUri uri = some elements) :
    ∃ skipped, ∃ text : UriText,
      uri = skipped ++ text.bytes ∧
        boostLineBreaks.startsLine skipped.reverse
          text.bytes = true ∧
          elements = text.elements := by
  have hNonempty : uri ≠ [] := by
    rintro rfl
    simp [proccessUri] at hUri
  cases hSearch :
      search boostLineBreaks protoIpPortUrlRegex uri with
  | none => simp [proccessUri, hNonempty, hSearch] at hUri
  | some last =>
      obtain ⟨skipped, rest, rfl, hLast⟩ :=
        searchFrom_eq_some hSearch
      rw [List.append_nil] at hLast
      obtain ⟨text, rfl, hStart, hCaptures⟩ :=
        uriText_of_captures hLast
      have hElements := proccessUri_eq_of_search hNonempty
        hSearch hCaptures
      rw [hUri] at hElements
      exact ⟨skipped, text, rfl, hStart,
        Option.some.inj hElements⟩

end Network
