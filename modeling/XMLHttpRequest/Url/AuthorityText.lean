import XMLHttpRequest.Url.Spelling
import XMLHttpRequest.Url.AuthorityFields
import XMLHttpRequest.Base.SessionUtil

/-
  An authority inside of a URL.

  The scan of `http_parser_parse_url` goes through every
  authority and sees its `@`.  Where the scan of a text goes
  through, it holds the parts of the text, and `strtoul` reads
  the port.

  Key definitions include:
    * `Network.UrlText.Holds`

  Key theorems include:
    * `Network.Authority.alive_bytes`
    * `Network.strtoul_digits`
    * `Network.UrlText.holds_of_loop`
-/

------------------------------------------------------------
-- Authorities in a URL
------------------------------------------------------------

namespace Network

open Scanner (scan)

theorem isUserinfoChar_of_isHostChar
    {c : UInt8}
    (hHost : isHostChar c = true) :
    isUserinfoChar c = true := by
  have hMarks : ascii ".-_" = [46, 45, 95] := by decide
  have hDot : isUserinfoChar 46 = true := by decide
  have hDash : isUserinfoChar 45 = true := by decide
  have hLow : isUserinfoChar 95 = true := by decide
  simp only [isHostChar, hMarks, Bool.or_eq_true,
    List.contains_eq_mem, decide_eq_true_eq, List.mem_cons,
    List.not_mem_nil, or_false] at hHost
  rcases hHost with hLetter | rfl | rfl | rfl
  · simp [isUserinfoChar, hLetter]
  · exact hDot
  · exact hDash
  · exact hLow

theorem isUserinfoChar_of_isZoneChar
    {c : UInt8}
    (hZone : isZoneChar c = true) :
    isUserinfoChar c = true := by
  have hMarks : ascii "%.-_~" = [37, 46, 45, 95, 126] := by
    decide
  simp only [isZoneChar, hMarks, Bool.or_eq_true,
    List.contains_eq_mem, decide_eq_true_eq, List.mem_cons,
    List.not_mem_nil, or_false] at hZone
  rcases hZone with hLetter | rfl | rfl | rfl | rfl | rfl
  · simp [isUserinfoChar, hLetter]
  all_goals decide

theorem isUserinfoChar_of_isAddressByte
    {c : UInt8}
    (hAddress : isAddressByte c = true) :
    isUserinfoChar c = true := by
  have hHex (hHex : isHex c = true) : isAlphaNum c = true := by
    simp only [isHex, isAlphaNum, isAlpha] at hHex ⊢
    grind
  simp only [isAddressByte, Bool.or_eq_true,
    decide_eq_true_eq] at hAddress
  rcases hAddress with (hLetter | rfl) | rfl
  · simp [isUserinfoChar, hHex hLetter]
  all_goals decide

/- A character of the server part that is no `@` goes on. -/
theorem parseUrlChar_isServerChar
    {s : UrlState}
    (hState : s.inServer)
    {c : UInt8}
    (hChar : isServerChar c = true) :
    parseUrlChar s c = .server := by
  have hMarks :
      c ≠ 47 ∧ c ≠ 63 ∧ c ≠ 64 ∧ c ≠ 32 ∧ c ≠ 13 ∧ c ≠ 10 := by
    refine ⟨?_, ?_, ?_, ?_, ?_, ?_⟩ <;>
    · rintro rfl
      exact absurd hChar (by decide)
  unfold isServerChar at hChar
  rcases hState with rfl | rfl | rfl <;>
    simp [parseUrlChar, parseServerChar, hMarks, hChar]

namespace HostSpelling

theorem isServerChar_bytes
    (host : HostSpelling) :
    ∀ c ∈ host.bytes, isServerChar c = true := by
  have hUserinfo
      {c : UInt8}
      (hChar : isUserinfoChar c = true) :
      isServerChar c = true := by
    simp [isServerChar, hChar]
  intro c hMem
  cases host with
  | name text hNonempty hChars =>
      have hText : c ∈ text := by
        simpa [bytes, opening, HostSpelling.text, closing]
          using hMem
      exact hUserinfo
        (isUserinfoChar_of_isHostChar (hChars c hText))
  | address text zone hNonempty hChars hSome hZone =>
      have hCases :
          c = 91 ∨ c ∈ text ∨ c ∈ UrlText.marked 37 zone ∨
            c = 93 := by
        simpa [bytes, opening, HostSpelling.text, closing,
          or_assoc] using hMem
      rcases hCases with rfl | hText | hZoneText | rfl
      · decide
      · exact hUserinfo
          (isUserinfoChar_of_isAddressByte (hChars c hText))
      · cases zone with
        | none => cases hZoneText
        | some zone =>
            rcases List.mem_cons.mp hZoneText with
              rfl | hIn
            · decide
            · exact hUserinfo
                (isUserinfoChar_of_isZoneChar
                  (hZone zone rfl c hIn))
      · decide

end HostSpelling

namespace Authority

variable (authority : Authority)

/- What stands behind the user information. -/
def server : Bytes :=
  authority.host.bytes ++ UrlText.marked 58 authority.port

theorem isServerChar_server :
    ∀ c ∈ authority.server, isServerChar c = true := by
  intro c hMem
  rcases List.mem_append.mp hMem with hHost | hPort
  · exact authority.host.isServerChar_bytes c hHost
  · have hDigits := authority.port_digits
    cases hSome : authority.port with
    | none =>
        rw [hSome] at hPort
        cases hPort
    | some port =>
        rw [hSome] at hPort hDigits
        rcases List.mem_cons.mp hPort with rfl | hIn
        · decide
        · have hDigit := (hDigits port rfl).chars c hIn
          simp [isServerChar, isUserinfoChar, isAlphaNum,
            hDigit]

theorem isServerChar_userinfo
    {text : Bytes}
    (hText : authority.userinfo = some text) :
    ∀ c ∈ text, isServerChar c = true := by
  intro c hMem
  have hChar := authority.userinfo_chars text hText c hMem
  simp [isServerChar, hChar]

/- All but one character are no `@`, and none is a slash. -/
theorem mem_bytes
    {c : UInt8}
    (hMem : c ∈ authority.bytes) :
    (authority.userinfo ≠ none ∧ c = 64) ∨
      isServerChar c = true := by
  rcases List.mem_append.mp hMem with hFirst | hServer
  · unfold userinfoText at hFirst
    cases hText : authority.userinfo with
    | none =>
        rw [hText] at hFirst
        cases hFirst
    | some text =>
        rw [hText] at hFirst
        rcases List.mem_append.mp hFirst with hIn | hMark
        · exact .inr
            (authority.isServerChar_userinfo hText c hIn)
        · exact .inl ⟨by simp, List.mem_singleton.mp hMark⟩
  · exact .inr (authority.isServerChar_server c hServer)

theorem mem_at_iff :
    (64 : UInt8) ∈ authority.bytes ↔
      authority.userinfo.isSome = true := by
  constructor
  · intro hMem
    rcases authority.mem_bytes hMem with ⟨hSome, _⟩ | hChar
    · exact Option.isSome_iff_ne_none.mpr hSome
    · exact absurd hChar (by decide)
  · intro hSome
    rcases Option.isSome_iff_exists.mp hSome with
      ⟨text, hText⟩
    simp [bytes, userinfoText, hText]

/- No mark that ends an authority is in one. -/
theorem bytes_chars :
    ∀ c ∈ authority.bytes, c ≠ 47 ∧ c ≠ 63 ∧ c ≠ 35 := by
  intro c hMem
  rcases authority.mem_bytes hMem with ⟨_, rfl⟩ | hChar
  · decide
  · refine ⟨?_, ?_, ?_⟩ <;>
    · rintro rfl
      exact absurd hChar (by decide)

theorem bytes_nonempty : authority.bytes ≠ [] := by
  cases hHost : authority.host with
  | name text hNonempty hChars =>
      simp [bytes, hHost, HostSpelling.bytes,
        HostSpelling.text, hNonempty]
  | address text zone hNonempty hChars hSome hZone =>
      simp [bytes, hHost, HostSpelling.bytes,
        HostSpelling.opening]

/- The scan of a URL goes through an authority. -/
theorem alive_bytes :
    scan parseUrlChar .serverStart authority.bytes ≠
      .dead := by
  have hStays
      (text : Bytes)
      (hText : ∀ c ∈ text, isServerChar c = true)
      {s : UrlState}
      (hState : s.inServer) :
      (scan parseUrlChar s text).inServer := by
    refine Scanner.stays ?_ hState
    intro c hMem s hInside
    rw [parseUrlChar_isServerChar hInside (hText c hMem)]
    exact .inr (.inl rfl)
  have hServer {s : UrlState} (hState : s.inServer) :
      scan parseUrlChar s authority.server ≠ .dead :=
    alive_of_inServer
      (hStays _ authority.isServerChar_server hState)
  cases hText : authority.userinfo with
  | none =>
      have hBytes : authority.bytes = authority.server := by
        simp [bytes, userinfoText, hText, server]
      rw [hBytes]
      exact hServer (.inl rfl)
  | some text =>
      have hChars := authority.isServerChar_userinfo hText
      have hMark :
          parseUrlChar (scan parseUrlChar .serverStart text)
            64 = .serverWithAt := by
        cases text using List.reverseRecOn with
        | nil => decide
        | append_singleton front c =>
            have hFront := hStays front
              (fun d hMem => hChars d
                (List.mem_append_left [c] hMem))
              (.inl rfl)
            have hLast : isServerChar c = true :=
              hChars c (by simp)
            rw [Scanner.scan_append, Scanner.scan_cons,
              parseUrlChar_isServerChar hFront hLast]
            decide
      have hBytes :
          authority.bytes =
            text ++ 64 :: authority.server := by
        simp [bytes, userinfoText, hText, server]
      rw [hBytes, Scanner.scan_append, Scanner.scan_cons,
        hMark]
      exact hServer (.inr (.inr rfl))

end Authority

end Network

------------------------------------------------------------
-- Ports
------------------------------------------------------------

namespace Network

/- `strtoul` reads the digits that a number begins with. -/
theorem strtoul_digits
    {digits rest : Bytes}
    (hDigits : IsPort digits)
    (hRest : ∀ c ∈ rest.head?, isDigit c = false) :
    strtoul (digits ++ rest) =
      if decimalValue digits < 2 ^ 64 then
        (decimalValue digits : Int)
      else 2 ^ 64 - 1 := by
  have hTake :
      (digits ++ rest).takeWhile isDigit = digits :=
    takeWhile_append_of_head? hDigits.chars hRest
  cases digits with
  | nil => exact absurd rfl hDigits.nonempty
  | cons c digits =>
      have hFirst := hDigits.chars c List.mem_cons_self
      have hSpace : isSpace c = false := by
        revert hFirst
        simp only [isDigit, isSpace]
        grind
      have hMinus : c ≠ 45 := by
        rintro rfl
        exact absurd hFirst (by decide)
      have hPlus : c ≠ 43 := by
        rintro rfl
        exact absurd hFirst (by decide)
      have hValue :
          ((c :: digits).foldl
              (fun n c => n * 10 + (c.toNat - 48)) 0 : Nat) =
            decimalValue (c :: digits) := rfl
      rw [List.cons_append] at hTake
      unfold strtoul
      simp only [List.cons_append, List.dropWhile_cons,
        hSpace, Bool.false_eq_true, if_false]
      -- the text begins with a digit and has no sign
      split
      · rename_i hHead
        exact absurd (List.cons.inj hHead).1 hMinus
      · rename_i hHead
        exact absurd (List.cons.inj hHead).1 hPlus
      · rw [hTake, hValue, one_mul]
        split
        · omega
        · rfl

theorem strtoul_digits_le_iff
    {digits rest : Bytes}
    (hDigits : IsPort digits)
    (hRest : ∀ c ∈ rest.head?, isDigit c = false) :
    strtoul (digits ++ rest) ≤ 0xffff ↔
      decimalValue digits ≤ 0xffff := by
  rw [strtoul_digits hDigits hRest]
  split <;> omega

end Network

------------------------------------------------------------
-- Texts with an Authority
------------------------------------------------------------

namespace Network

open Scanner (scan)

namespace HostScan

theorem tracks :
    Scanner.Tracks char HostScan.s httpParseHostChar
      .dead where
  absorbing := httpParseHostChar_absorbing
  state_eq := by
    intro scan p ch next hChar
    rw [char] at hChar
    split at hChar
    · cases hChar
    all_goals
      rename_i hState
      rw [Option.some.injEq] at hChar
      rw [← hChar]
  isSome_iff := by
    intro scan p ch
    unfold char
    cases httpParseHostChar scan.s ch <;> simp

end HostScan

theorem UrlState.schemeMark_cases
    {s : UrlState}
    {mark : Bytes}
    (hMark : s.schemeMark = some mark) :
    mark = [] ∨ mark = [58] ∨ mark = [58, 47] := by
  cases s <;> simp [schemeMark] at hMark <;> simp [← hMark]

namespace UrlText

/- What the scan has recorded, without the fragment. -/
structure Holds (text : UrlText) (scan : UrlScan) : Prop where
  foundAt :
    scan.foundAt = decide ((64 : UInt8) ∈ text.authority)
  fields :
    ∀ uf, uf ≠ .fragment →
      scan.u.fieldData uf = text.fields uf

/- A text has only one scheme, authority, path and query. -/
theorem Holds.of_bytes
    {text other : UrlText}
    {scan : UrlScan}
    (hRecorded : other.Recorded scan)
    (hBytes : other.bytes = text.bytes) :
    text.Holds scan := by
  have hScheme := other.takeWhile_bytes
  rw [hBytes, text.takeWhile_bytes] at hScheme
  have hAuthority := other.authorityOf_bytes
  rw [hBytes, text.authorityOf_bytes] at hAuthority
  have hPath := other.pathOf_bytes
  rw [hBytes, text.pathOf_bytes] at hPath
  have hQuery := other.queryOf_bytes
  rw [hBytes, text.queryOf_bytes] at hQuery
  constructor
  · rw [hAuthority]
    exact hRecorded.foundAt
  · intro uf hFragment
    rw [hRecorded.fields uf hFragment]
    cases uf <;>
      simp only [UrlText.fields, queryStart, pathStart,
        hostStart, hScheme, hAuthority, hPath, hQuery]

/- An authority stands behind the marks of the scheme. -/
theorem afterScheme_ne_nil
    {text : UrlText}
    (hAuthority : text.authority ≠ []) :
    afterScheme text.bytes ≠ [] := by
  rw [afterScheme_bytes]
  simp [hAuthority]

/- The scan of a text with an authority holds its parts. -/
theorem holds_of_loop
    {text : UrlText}
    (hAuthority : text.authority ≠ [])
    {scan : UrlScan}
    (hLoop :
      ({ s := .spacesBeforeUrl } : UrlScan).loop 0
        text.bytes = some scan) :
    text.Holds scan := by
  have hScanned : Scanned ([] ++ text.bytes) scan :=
    scanned_loop .start hLoop
  rw [List.nil_append] at hScanned
  have hAfter := afterScheme_ne_nil hAuthority
  generalize hBytes : text.bytes = bytes at hScanned
  rw [hBytes] at hAfter
  cases hScanned with
  | start => exact absurd rfl hAfter
  | @relative first rest scan hFirst hRelative hNone =>
      have hHead := congrArg List.head? hBytes
      rw [bytes_eq, List.head?_append_of_ne_nil _
        text.scheme_nonempty] at hHead
      have hMem := List.mem_of_mem_head? hHead
      rw [text.scheme_chars first hMem] at hFirst
      cases hFirst
  | @scheme other mark scan hOnly hMark hRecorded =>
      have hMarks :
          mark.length ≤ 2 ∧ ∀ c ∈ mark.head?, c = 58 := by
        rcases UrlState.schemeMark_cases hMark with
          rfl | rfl | rfl <;> simp
      have hDrop :
          (other.scheme ++ mark).dropWhile (fun c =>
            decide (c ≠ 58)) = mark := by
        refine dropWhile_append_of_head?
          other.scheme_ne_colon ?_
        intro c hHead
        rw [hMarks.2 c hHead]
        rfl
      rw [afterScheme, hDrop,
        List.drop_eq_nil_of_le (by omega)] at hAfter
      exact absurd rfl hAfter
  | @parts other scan hEnds hRecorded =>
      exact .of_bytes hRecorded hBytes.symm

end UrlText

end Network
