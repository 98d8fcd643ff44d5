import XMLHttpRequest.Library.RegexLanguage
import XMLHttpRequest.Url.UriForm

/-
  How an address is cut into a host and a port.

  `checkHostPort` covers an address where it is a sequence of
  labels with a port behind a colon.

  Key definitions include:
    * `Network.IsHost`
    * `Network.IsPort`
    * `Network.hostPortText`

  Key theorems include:
    * `Network.isSome_checkHostPort_iff`
-/

------------------------------------------------------------
-- Hosts and Ports
------------------------------------------------------------

namespace Network

/- `[0-9a-z-]` -/
def isLabelChar (c : UInt8) : Bool :=
  isDigit c || (97 ≤ c && c ≤ 122) || c = 45

/- A label does not begin or end with a hyphen. -/
structure IsLabel (label : Bytes) : Prop where
  nonempty : label ≠ []
  chars : ∀ c ∈ label, isLabelChar c = true
  first : label.head? ≠ some 45
  last : label.getLast? ≠ some 45

/- Labels with dots between them. -/
inductive IsHost : Bytes → Prop
  | label {label : Bytes} :
      IsLabel label → IsHost label
  | dot {label host : Bytes} :
      IsLabel label → IsHost host →
        IsHost (label ++ 46 :: host)

structure IsPort (port : Bytes) : Prop where
  nonempty : port ≠ []
  chars : ∀ c ∈ port, isDigit c = true

/- The text of a host with an optional port. -/
def hostPortText
    (host : Bytes)
    (port : Option Bytes) : Bytes :=
  host ++
    match port with
    | none => []
    | some port => 58 :: port

theorem isLabelChar_iff {c : UInt8} :
    isLabelChar c = true ↔
      (48 ≤ c.toNat ∧ c.toNat ≤ 57) ∨
        (97 ≤ c.toNat ∧ c.toNat ≤ 122) ∨ c.toNat = 45 := by
  simp [isLabelChar, isDigit, UInt8.le_iff_toNat_le,
    ← UInt8.toNat_inj, or_assoc]

theorem isAddressChar_of_isLabelChar
    {c : UInt8}
    (hLabel : isLabelChar c = true) :
    isAddressChar c = true := by
  rw [isLabelChar_iff] at hLabel
  rw [isAddressChar_iff]
  omega

theorem isAddressChar_of_isDigit
    {c : UInt8}
    (hDigit : isDigit c = true) :
    isAddressChar c = true := by
  rw [isDigit_iff] at hDigit
  rw [isAddressChar_iff]
  omega

theorem isLabelChar_ne
    {c : UInt8}
    (hLabel : isLabelChar c = true) :
    c ≠ 46 ∧ c ≠ 58 := by
  constructor
  · rintro rfl
    revert hLabel
    decide
  · rintro rfl
    revert hLabel
    decide

/- A host is made of label characters and dots. -/
theorem IsHost.chars
    {host : Bytes}
    (hHost : IsHost host) :
    ∀ c ∈ host, isLabelChar c = true ∨ c = 46 := by
  induction hHost with
  | label hLabel =>
      exact fun c hMem => Or.inl (hLabel.chars c hMem)
  | dot hLabel hRest ih =>
      intro c hMem
      rcases List.mem_append.mp hMem with hFirst | hOthers
      · exact Or.inl (hLabel.chars c hFirst)
      · rcases List.mem_cons.mp hOthers with rfl | hHostMem
        · exact Or.inr rfl
        · exact ih c hHostMem

theorem IsHost.isAddressChar
    {host : Bytes}
    (hHost : IsHost host)
    {c : UInt8}
    (hMem : c ∈ host) :
    isAddressChar c = true := by
  rcases hHost.chars c hMem with hLabel | rfl
  · exact isAddressChar_of_isLabelChar hLabel
  · decide

theorem IsHost.not_colon
    {host : Bytes}
    (hHost : IsHost host) :
    (58 : UInt8) ∉ host := by
  intro hMem
  rcases hHost.chars 58 hMem with hLabel | hDot
  · exact (isLabelChar_ne hLabel).2 rfl
  · exact absurd hDot (by decide)

theorem IsPort.not_colon
    {port : Bytes}
    (hPort : IsPort port) :
    (58 : UInt8) ∉ port := by
  intro hMem
  have hDigit := hPort.chars 58 hMem
  revert hDigit
  decide

end Network

------------------------------------------------------------
-- The Words of `checkHostPort`
------------------------------------------------------------

namespace Network

open Regex

theorem mem_language_oneOf
    {accepted word : Bytes} :
    word ∈ (oneOf accepted).language ↔
      ∃ c ∈ accepted, word = [c] := by
  rw [oneOf, mem_language_char]
  simp

theorem hostLabel_plain (inner : Bytes) :
    (hostLabel inner).Plain := by
  have hNonempty :
      [] ∉ (oneOf (alphanumerics ++ inner)).language := by
    rw [mem_language_oneOf]
    simp
  exact ⟨trivial, trivial, ⟨trivial, hNonempty⟩, trivial⟩

/- A letter or digit, or two of them around inner ones. -/
theorem mem_language_hostLabel
    {inner word : Bytes} :
    word ∈ (hostLabel inner).language ↔
      (∃ c ∈ alphanumerics, word = [c]) ∨
        ∃ first ∈ alphanumerics, ∃ last ∈ alphanumerics,
          ∃ middle : Bytes,
            (∀ c ∈ middle, c ∈ alphanumerics ++ inner) ∧
              word = first :: (middle ++ [last]) := by
  rw [hostLabel, mem_language_alt, mem_language_oneOf]
  apply or_congr_right
  simp only [inOrder, mem_language_seq, mem_language_oneOf]
  constructor
  · rintro ⟨_, ⟨first, hFirst, rfl⟩, _,
      ⟨middle, hMiddle, _, ⟨last, hLast, rfl⟩, rfl⟩, rfl⟩
    rw [oneOf, mem_language_repeated_char] at hMiddle
    exact ⟨first, hFirst, last, hLast, middle,
      by simpa using hMiddle.2, rfl⟩
  · rintro ⟨first, hFirst, last, hLast, middle, hMiddle, rfl⟩
    refine ⟨[first], ⟨first, hFirst, rfl⟩,
      middle ++ [last], ⟨middle, ?_, [last],
        ⟨last, hLast, rfl⟩, rfl⟩, rfl⟩
    rw [oneOf, mem_language_repeated_char]
    exact ⟨Nat.zero_le _, by simpa using hMiddle⟩

theorem mem_alphanumerics_iff {c : UInt8} :
    c ∈ alphanumerics ↔
      (48 ≤ c.toNat ∧ c.toNat ≤ 57) ∨
        (65 ≤ c.toNat ∧ c.toNat ≤ 90) ∨
        (97 ≤ c.toNat ∧ c.toNat ≤ 122) := by
  rw [alphanumerics, lowerLetters_eq, upperLetters_eq,
    digits_eq, List.mem_append, List.mem_append,
    mem_byteRange_iff (by decide), mem_byteRange_iff (by decide),
    mem_byteRange_iff (by decide)]
  omega

theorem isLabelChar_of_mem_alphanumerics
    {c : UInt8}
    (hMem : c ∈ alphanumerics)
    (hAddress : isAddressChar c = true) :
    isLabelChar c = true ∧ c ≠ 45 := by
  rw [mem_alphanumerics_iff] at hMem
  rw [isAddressChar_iff] at hAddress
  refine ⟨isLabelChar_iff.mpr (by omega), ?_⟩
  rintro rfl
  exact absurd hMem (by decide)

theorem mem_alphanumerics_of_isLabelChar
    {c : UInt8}
    (hLabel : isLabelChar c = true)
    (hHyphen : c ≠ 45) :
    c ∈ alphanumerics := by
  rw [isLabelChar_iff] at hLabel
  have hNat : c.toNat ≠ 45 := fun hSame =>
    hHyphen (UInt8.toNat_inj.mp hSame)
  rw [mem_alphanumerics_iff]
  omega

theorem mem_inner_iff
    {inner : Bytes}
    (hHyphen : 45 ∈ inner)
    (hInner : ∀ c ∈ inner, c = 45 ∨ c = 92)
    {c : UInt8}
    (hAddress : isAddressChar c = true) :
    c ∈ alphanumerics ++ inner ↔ isLabelChar c = true := by
  rw [List.mem_append]
  constructor
  · rintro (hLetter | hMem)
    · exact (isLabelChar_of_mem_alphanumerics hLetter
        hAddress).1
    · rcases hInner c hMem with rfl | rfl
      · decide
      · rw [isAddressChar_iff] at hAddress
        exact absurd hAddress (by decide)
  · intro hLabel
    by_cases hC : c = 45
    · exact Or.inr (hC ▸ hHyphen)
    · exact Or.inl
        (mem_alphanumerics_of_isLabelChar hLabel hC)

/- Among address characters the words are the labels. -/
theorem mem_language_hostLabel_iff
    {inner word : Bytes}
    (hHyphen : 45 ∈ inner)
    (hInner : ∀ c ∈ inner, c = 45 ∨ c = 92)
    (hWord : ∀ c ∈ word, isAddressChar c = true) :
    word ∈ (hostLabel inner).language ↔ IsLabel word := by
  rw [mem_language_hostLabel]
  constructor
  · rintro (⟨c, hC, rfl⟩ |
      ⟨first, hFirst, last, hLast, middle, hMiddle, rfl⟩)
    · have hLabel := isLabelChar_of_mem_alphanumerics hC
        (hWord c (by simp))
      exact
        { nonempty := by simp
          chars := by simpa using hLabel.1
          first := by simpa using hLabel.2
          last := by simpa using hLabel.2 }
    · have hFirstLabel :=
        isLabelChar_of_mem_alphanumerics hFirst
          (hWord first (by simp))
      have hLastLabel :=
        isLabelChar_of_mem_alphanumerics hLast
          (hWord last (by simp))
      refine
        { nonempty := by simp
          chars := ?_
          first := by simpa using hFirstLabel.2
          last := ?_ }
      · intro c hMem
        rw [List.mem_cons, List.mem_append,
          List.mem_singleton] at hMem
        rcases hMem with rfl | hMem | rfl
        · exact hFirstLabel.1
        · exact (mem_inner_iff hHyphen hInner
            (hWord c (by simp [hMem]))).mp (hMiddle c hMem)
        · exact hLastLabel.1
      · rw [← List.cons_append, List.getLast?_concat]
        simpa using hLastLabel.2
  · intro hLabel
    cases word with
    | nil => exact absurd rfl hLabel.nonempty
    | cons first others =>
        have hFirst : first ∈ alphanumerics :=
          mem_alphanumerics_of_isLabelChar
            (hLabel.chars first (by simp))
            (by simpa using hLabel.first)
        rcases List.eq_nil_or_concat others with
          rfl | ⟨middle, last, rfl⟩
        · exact Or.inl ⟨first, hFirst, rfl⟩
        · have hEnd := hLabel.last
          rw [List.concat_eq_append, ← List.cons_append,
            List.getLast?_concat] at hEnd
          have hLast : last ∈ alphanumerics :=
            mem_alphanumerics_of_isLabelChar
              (hLabel.chars last (by simp))
              (by simpa using hEnd)
          refine Or.inr ⟨first, hFirst, last, hLast, middle,
            ?_, by simp⟩
          intro c hMem
          exact (mem_inner_iff hHyphen hInner
            (hWord c (by simp [hMem]))).mpr
              (hLabel.chars c (by simp [hMem]))

end Network

namespace Network

open Regex

/- The labels of a host that have a dot behind them. -/
def dottedLabels : Pattern UInt8 :=
  .repeated
    (.seq (hostLabel (ascii "\\-")) (literal '.')) 0 none

theorem dottedLabels_plain : dottedLabels.Plain := by
  refine ⟨⟨hostLabel_plain _, trivial⟩, ?_⟩
  rw [mem_language_seq]
  rintro ⟨head, -, tail, hTail, hNil⟩
  rw [literal, mem_language_oneOf] at hTail
  obtain ⟨c, -, rfl⟩ := hTail
  simp at hNil

/- A label with its dot. -/
theorem mem_language_dottedLabel_iff
    {word : Bytes}
    (hWord : ∀ c ∈ word, isAddressChar c = true) :
    word ∈
        (Pattern.seq (hostLabel (ascii "\\-"))
          (literal '.')).language ↔
      ∃ label, IsLabel label ∧ word = label ++ [46] := by
  have hDot : ascii (Char.toString '.') = [46] := by decide
  rw [mem_language_seq, literal, hDot]
  constructor
  · rintro ⟨label, hLabel, dot, hMem, rfl⟩
    rw [mem_language_oneOf] at hMem
    obtain ⟨c, hC, rfl⟩ := hMem
    rw [List.mem_singleton] at hC
    subst hC
    refine ⟨label, ?_, rfl⟩
    exact (mem_language_hostLabel_iff (by decide)
      (by decide +kernel)
      fun c hMem => hWord c (List.mem_append_left _ hMem)).mp
        hLabel
  · rintro ⟨label, hLabel, rfl⟩
    refine ⟨label, ?_, [46],
      mem_language_oneOf.mpr ⟨46, by simp, rfl⟩, rfl⟩
    exact (mem_language_hostLabel_iff (by decide)
      (by decide +kernel)
      fun c hMem => hWord c (List.mem_append_left _ hMem)).mpr
        hLabel

/- Dotted labels with a label behind them are a host. -/
theorem isHost_of_words
    {dotted label : Bytes}
    (hDotted : dotted ∈ dottedLabels.language)
    (hLabel : label ∈ (hostLabel (ascii "-")).language)
    (hChars : ∀ c ∈ dotted ++ label, isAddressChar c = true) :
    IsHost (dotted ++ label) := by
  revert hChars
  refine repetition_induction
    (motive := fun dotted =>
      (∀ c ∈ dotted ++ label, isAddressChar c = true) →
        IsHost (dotted ++ label))
    ?_ ?_ hDotted
  · intro hChars
    exact .label ((mem_language_hostLabel_iff (by decide)
      (by decide +kernel) hChars).mp hLabel)
  · intro head tail hHead ih hChars
    rw [List.append_assoc] at hChars ⊢
    obtain ⟨first, hFirst, rfl⟩ :=
      (mem_language_dottedLabel_iff fun c hMem =>
        hChars c (List.mem_append_left _ hMem)).mp hHead
    rw [List.append_assoc]
    exact .dot hFirst (ih fun c hMem =>
      hChars c (List.mem_append_right _ hMem))

theorem words_of_isHost
    {host : Bytes}
    (hHost : IsHost host) :
    ∃ dotted ∈ dottedLabels.language,
      ∃ label ∈ (hostLabel (ascii "-")).language,
        dotted ++ label = host := by
  induction hHost with
  | label hLabel =>
      refine ⟨[], mem_repetition_iff.mpr (Or.inl ⟨rfl, rfl⟩),
        _, ?_, rfl⟩
      exact (mem_language_hostLabel_iff (by decide)
      (by decide +kernel)
        fun c hMem => isAddressChar_of_isLabelChar
          (hLabel.chars c hMem)).mpr hLabel
  | @dot first host hLabel hRest ih =>
      obtain ⟨dotted, hDotted, label, hLast, rfl⟩ := ih
      refine ⟨(first ++ [46]) ++ dotted, ?_, label, hLast,
        by simp⟩
      refine mem_repetition_iff.mpr (Or.inr ⟨by simp,
        first ++ [46], ?_, dotted, hDotted, rfl⟩)
      refine (mem_language_dottedLabel_iff ?_).mpr
        ⟨first, hLabel, rfl⟩
      intro c hMem
      rcases List.mem_append.mp hMem with hFirst | hDot
      · exact isAddressChar_of_isLabelChar
          (hLabel.chars c hFirst)
      · rw [List.mem_singleton.mp hDot]
        decide

theorem mem_digits_iff {c : UInt8} :
    c ∈ digits ↔ isDigit c = true := by
  rw [digits_eq, mem_byteRange_iff (by decide), isDigit_iff]
  omega

theorem mem_language_port_iff {word : Bytes} :
    word ∈ (Pattern.repeated (oneOf digits) 1 none).language ↔
      IsPort word := by
  rw [oneOf, mem_language_repeated_char]
  simp only [decide_eq_true_eq, mem_digits_iff]
  constructor
  · rintro ⟨hLength, hDigits⟩
    exact ⟨List.ne_nil_of_length_pos hLength, hDigits⟩
  · rintro ⟨hNonempty, hDigits⟩
    exact ⟨List.length_pos_iff.mpr hNonempty, hDigits⟩

/- The second pattern without its anchors. -/
def hostPortPattern : Pattern UInt8 :=
  .seq
    (.seq (.seq dottedLabels (hostLabel (ascii "-")))
      (literal ':'))
    (.repeated (oneOf digits) 1 none)

theorem hostPortPattern_plain : hostPortPattern.Plain := by
  have hDigits : [] ∉ (oneOf digits).language := by
    rw [mem_language_oneOf]
    simp
  exact ⟨⟨⟨dottedLabels_plain, hostLabel_plain _⟩,
    trivial⟩, trivial, hDigits⟩

theorem mem_language_hostPortPattern_iff
    {address : Bytes}
    (hAddress : ∀ c ∈ address, isAddressChar c = true) :
    address ∈ hostPortPattern.language ↔
      ∃ host port, IsHost host ∧ IsPort port ∧
        address = host ++ 58 :: port := by
  have hColon : ascii (Char.toString ':') = [58] := by decide
  rw [hostPortPattern, mem_language_seq]
  constructor
  · rintro ⟨front, hFront, port, hPort, rfl⟩
    obtain ⟨host, hHost, colon, hMark, rfl⟩ :=
      mem_language_seq.mp hFront
    obtain ⟨dotted, hDotted, label, hLabel, rfl⟩ :=
      mem_language_seq.mp hHost
    rw [literal, hColon, mem_language_oneOf] at hMark
    obtain ⟨c, hC, rfl⟩ := hMark
    rw [List.mem_singleton] at hC
    subst hC
    refine ⟨dotted ++ label, port,
      isHost_of_words hDotted hLabel ?_,
      mem_language_port_iff.mp hPort, by simp⟩
    intro c hMem
    exact hAddress c (List.mem_append_left _
      (List.mem_append_left _ hMem))
  · rintro ⟨host, port, hHost, hPort, rfl⟩
    have hMark : [58] ∈ (literal ':').language := by
      rw [literal, hColon, mem_language_oneOf]
      exact ⟨58, by simp, rfl⟩
    exact ⟨host ++ [58],
      mem_language_seq.mpr
        ⟨host, mem_language_seq.mpr (words_of_isHost hHost),
          [58], hMark, rfl⟩,
      port, mem_language_port_iff.mpr hPort, by simp⟩

/- The second pattern covers a host with a port. -/
theorem isSome_checkHostPort_iff
    {address : Bytes}
    (hAddress : ∀ c ∈ address, isAddressChar c = true) :
    (fullMatch boostLineBreaks checkHostPort address).isSome ↔
      ∃ host port, IsHost host ∧ IsPort port ∧
        address = host ++ 58 :: port := by
  have hPattern :
      fullMatch boostLineBreaks checkHostPort address =
        fullMatch boostLineBreaks
          (.seq .lineStart (.seq hostPortPattern .lineEnd))
          address := by
    have hEnds :
        ends boostLineBreaks checkHostPort =
          ends boostLineBreaks
            (.seq .lineStart
              (.seq hostPortPattern .lineEnd)) := by
      funext position
      change ends boostLineBreaks
        (.seq .lineStart
          (.seq dottedLabels
            (.seq (hostLabel (ascii "-"))
              (.seq (literal ':')
                (.seq (.repeated (oneOf digits) 1 none)
                  .lineEnd))))) position = _
      rw [ends_seq_lineStart, ends_seq_lineStart,
        hostPortPattern]
      simp only [ends_seq_assoc]
    rw [fullMatch, hEnds]
    rfl
  rw [hPattern,
    isSome_fullMatch_anchored_iff hostPortPattern_plain rfl
      (fun before => rfl),
    mem_language_hostPortPattern_iff hAddress]

end Network

------------------------------------------------------------
-- Cutting an Address
------------------------------------------------------------

namespace Network

theorem splitLastColon_of_port
    {host port : Bytes}
    (hPort : (58 : UInt8) ∉ port) :
    splitLastColon (host ++ 58 :: port) = some (host, port) := by
  have hReverse :
      (host ++ 58 :: port).reverse =
        port.reverse ++ 58 :: host.reverse := by
    simp
  have hRun :
      (port.reverse ++ 58 :: host.reverse).takeWhile
          (fun c => decide (c ≠ 58)) =
        port.reverse := by
    refine takeWhile_append_of_head? ?_ ?_
    · intro c hMem
      rw [List.mem_reverse] at hMem
      exact decide_eq_true fun hColon => hPort (hColon ▸ hMem)
    · simp
  have hLength :
      (host ++ 58 :: port).length - port.length - 1 =
        host.length := by
    simp only [List.length_append, List.length_cons]
    omega
  rw [splitLastColon, hReverse, hRun, List.reverse_reverse]
  simp only [hLength, List.take_left' rfl]
  simp

/- A port behind a host is cut off. -/
theorem hostAndPort_of_port
    {host port : Bytes}
    (hHost : IsHost host)
    (hPort : IsPort port) :
    hostAndPort (host ++ 58 :: port) = (host, port) := by
  have hChars :
      ∀ c ∈ host ++ 58 :: port, isAddressChar c = true := by
    intro c hMem
    rcases List.mem_append.mp hMem with hFirst | hSecond
    · exact hHost.isAddressChar hFirst
    · rcases List.mem_cons.mp hSecond with rfl | hDigit
      · decide
      · exact isAddressChar_of_isDigit
          (hPort.chars c hDigit)
  obtain ⟨last, hMatch⟩ := Option.isSome_iff_exists.mp
    ((isSome_checkHostPort_iff hChars).mpr
      ⟨host, port, hHost, hPort, rfl⟩)
  rw [hostAndPort, hMatch]
  simp only [splitLastColon_of_port hPort.not_colon,
    Option.getD_some]

/- Any other address is a host as a whole. -/
theorem hostAndPort_of_not
    {address : Bytes}
    (hChars : ∀ c ∈ address, isAddressChar c = true)
    (hNot :
      ¬ ∃ host port, IsHost host ∧ IsPort port ∧
        address = host ++ 58 :: port) :
    hostAndPort address = (address, []) := by
  rw [← isSome_checkHostPort_iff hChars,
    Option.not_isSome_iff_eq_none] at hNot
  rw [hostAndPort, hNot]

theorem hostAndPort_cases
    {address : Bytes}
    (hChars : ∀ c ∈ address, isAddressChar c = true) :
    hostAndPort address = (address, []) ∨
      ∃ host port, IsHost host ∧ IsPort port ∧
        address = host ++ 58 :: port ∧
          hostAndPort address = (host, port) := by
  by_cases hSplit :
      ∃ host port, IsHost host ∧ IsPort port ∧
        address = host ++ 58 :: port
  · obtain ⟨host, port, hHost, hPort, rfl⟩ := hSplit
    exact Or.inr ⟨host, port, hHost, hPort, rfl,
      hostAndPort_of_port hHost hPort⟩
  · exact Or.inl (hostAndPort_of_not hChars hSplit)

end Network
