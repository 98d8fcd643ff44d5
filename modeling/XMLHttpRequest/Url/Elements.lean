import XMLHttpRequest.Url.HostForm

/-
  The elements that `proccessUri` returns.

  A well-formed URI is taken apart into its own parts.  The
  converse does not hold of everything that is accepted: the
  search may begin after a line break, and the letters of the
  protocol may stand in any order.

  Key definitions include:
    * `Network.AccountsFor`
    * `Network.BeginsWithScheme`

  Key theorems include:
    * `Network.proccessUri_wellFormed`
    * `Network.proccessUri_accountsFor_iff`
-/

------------------------------------------------------------
-- Well-Formed URIs
------------------------------------------------------------

namespace Network

def IsScheme (scheme : Bytes) : Prop :=
  scheme = ascii "http" ∨ scheme = ascii "https"

/- The port that a scheme stands for. -/
def defaultPort (scheme : Bytes) : Bytes :=
  if scheme = ascii "https" then ascii "443" else ascii "80"

theorem IsScheme.protocol_chars
    {scheme : Bytes}
    (hScheme : IsScheme scheme) :
    ∀ c ∈ scheme, isProtocolChar c = true := by
  rcases hScheme with rfl | rfl
  · decide +kernel
  · decide +kernel

theorem IsScheme.length
    {scheme : Bytes}
    (hScheme : IsScheme scheme) :
    4 ≤ scheme.length ∧ scheme.length ≤ 5 := by
  rcases hScheme with rfl | rfl
  · decide
  · decide

/- A tail is empty, or a path, a query or a fragment. -/
def IsTail (tail : Bytes) : Prop :=
  ∀ c ∈ tail.head?, c = 47 ∨ c = 63 ∨ c = 35

theorem IsTail.head
    {tail : Bytes}
    (hTail : IsTail tail) :
    ∀ c ∈ tail.head?, isAddressChar c = false := by
  intro c hHead
  rcases hTail c hHead with rfl | rfl | rfl
  · decide
  · decide
  · decide

theorem hostPortText_chars
    {host : Bytes}
    {port : Option Bytes}
    (hHost : IsHost host)
    (hPort : ∀ text ∈ port, IsPort text) :
    ∀ c ∈ hostPortText host port, isAddressChar c = true := by
  intro c hMem
  rcases List.mem_append.mp hMem with hFirst | hSecond
  · exact hHost.isAddressChar hFirst
  · cases port with
    | none => simp at hSecond
    | some text =>
        rcases List.mem_cons.mp hSecond with rfl | hDigit
        · decide
        · exact isAddressChar_of_isDigit
            ((hPort text rfl).chars c hDigit)

theorem hostAndPort_hostPortText
    {host : Bytes}
    {port : Option Bytes}
    (hHost : IsHost host)
    (hPort : ∀ text ∈ port, IsPort text) :
    hostAndPort (hostPortText host port) =
      (host, port.getD []) := by
  cases port with
  | some text =>
      exact hostAndPort_of_port hHost (hPort text rfl)
  | none =>
      have hText : hostPortText host none = host := by
        simp [hostPortText]
      rw [hText]
      refine hostAndPort_of_not
        (fun c hMem => hHost.isAddressChar hMem) ?_
      rintro ⟨other, digits, -, -, rfl⟩
      exact hHost.not_colon (by simp)

/- A well-formed URI is taken apart into its parts. -/
theorem proccessUri_wellFormed
    {scheme host tail : Bytes}
    {port : Option Bytes}
    (hScheme : IsScheme scheme)
    (hHost : IsHost host)
    (hPort : ∀ text ∈ port, IsPort text)
    (hLength : 3 ≤ (hostPortText host port).length)
    (hTail : IsTail tail) :
    proccessUri
        (scheme ++ ascii "://" ++ hostPortText host port ++
          tail) =
      some
        { addr := host
          port := port.getD (defaultPort scheme)
          protocol := scheme
          urn := tail } := by
  let text : UriText :=
    { protocol := scheme
      address := hostPortText host port
      tail := tail
      protocol_chars := hScheme.protocol_chars
      protocol_length := hScheme.length
      address_chars := hostPortText_chars hHost hPort
      address_length := hLength
      tail_head := hTail.head }
  have hBytes :
      scheme ++ ascii "://" ++ hostPortText host port ++
          tail =
        text.bytes := by
    simp [text, UriText.bytes, UriText.afterProtocol]
  have hElements :
      text.elements =
        { addr := host
          port := port.getD (defaultPort scheme)
          protocol := scheme
          urn := tail } := by
    simp only [text, UriText.elements,
      hostAndPort_hostPortText hHost hPort]
    cases port with
    | none => rfl
    | some digits =>
        rw [Option.getD_some, Option.getD_some,
          if_neg (hPort digits rfl).nonempty]
  rw [hBytes, proccessUri_text, hElements]

end Network

namespace Network

theorem proccessUri_wellFormed_port :
    proccessUri
        (ascii "https" ++ ascii "://" ++
          hostPortText ([97] ++ 46 :: [98, 45, 49])
            (some [56, 48]) ++ ascii "/?http://c:1") =
      some
        { addr := [97] ++ 46 :: [98, 45, 49]
          port := (some [56, 48]).getD
            (defaultPort (ascii "https"))
          protocol := ascii "https"
          urn := ascii "/?http://c:1" } :=
  proccessUri_wellFormed (Or.inr rfl)
    (.dot
      ⟨by decide, by decide +kernel, by decide, by decide⟩
      (.label
        ⟨by decide, by decide +kernel, by decide, by decide⟩))
    (by
      intro text hText
      cases hText
      exact ⟨by decide, by decide +kernel⟩)
    (by decide)
    (by
      intro c hHead
      have hSlash : c = 47 := by
        simpa [ascii, eq_comm] using hHead
      exact Or.inl hSlash)

end Network

------------------------------------------------------------
-- Accepted URIs
------------------------------------------------------------

namespace Network

/- The elements name a known scheme and hold all the text. -/
def AccountsFor
    (elements : Elements)
    (uri : Bytes) : Prop :=
  IsScheme elements.protocol ∧
    (uri =
        elements.protocol ++ ascii "://" ++ elements.addr ++
          elements.urn ∨
      uri =
        elements.protocol ++ ascii "://" ++ elements.addr ++
          58 :: elements.port ++ elements.urn)

/- A known scheme stands first, and an address behind it. -/
def BeginsWithScheme (uri : Bytes) : Prop :=
  ∃ scheme address rest,
    IsScheme scheme ∧
      (∀ c ∈ address, isAddressChar c = true) ∧
        3 ≤ address.length ∧
          uri = scheme ++ ascii "://" ++ address ++ rest

theorem isLineBreak_of_isProtocolChar
    {c : UInt8}
    (hLetter : isProtocolChar c = true) :
    isLineBreak c = false := by
  rw [isProtocolChar_iff] at hLetter
  simp only [isLineBreak, Bool.or_eq_false_iff,
    decide_eq_false_iff_not, ← UInt8.toNat_inj,
    UInt8.reduceToNat]
  omega

/- What is skipped ends with a line break. -/
theorem exists_lineBreak_of_startsLine
    {skipped rest : Bytes}
    (hStart :
      boostLineBreaks.startsLine skipped.reverse rest = true)
    (hSkipped : skipped ≠ []) :
    ∃ c ∈ skipped, isLineBreak c = true := by
  cases hReverse : skipped.reverse with
  | nil => simp [hSkipped] at hReverse
  | cons c others =>
      have hMem : c ∈ skipped := by
        rw [← List.mem_reverse, hReverse]
        exact List.mem_cons_self
      rw [hReverse] at hStart
      refine ⟨c, hMem, ?_⟩
      simp only [boostLineBreaks, Bool.and_eq_true] at hStart
      exact hStart.1

/- Nothing is skipped of a text that begins with a protocol. -/
theorem skipped_eq_nil
    {skipped rest after : Bytes}
    {text : UriText}
    (hStart :
      boostLineBreaks.startsLine skipped.reverse rest = true)
    (hLength : skipped.length ≤ text.protocol.length)
    (hUri : skipped ++ rest = text.protocol ++ after) :
    skipped = [] := by
  by_contra hSkipped
  obtain ⟨c, hMem, hBreak⟩ :=
    exists_lineBreak_of_startsLine hStart hSkipped
  have hPrefix : skipped <+: text.protocol :=
    List.prefix_of_prefix_length_le
      (List.prefix_append skipped rest)
      (hUri ▸ List.prefix_append text.protocol after)
      hLength
  have hLetter :=
    text.protocol_chars c (hPrefix.subset hMem)
  rw [isLineBreak_of_isProtocolChar hLetter] at hBreak
  exact Bool.noConfusion hBreak

end Network

namespace Network

theorem defaultPort_length
    {scheme : Bytes}
    (hScheme : IsScheme scheme) :
    (defaultPort scheme).length < scheme.length := by
  rcases hScheme with rfl | rfl
  · decide
  · decide

/- An address is a host as a whole, or a host and a port. -/
theorem UriText.elements_cases (text : UriText) :
    (text.elements.addr = text.address ∧
      text.elements.port = defaultPort text.protocol) ∨
    text.address =
      text.elements.addr ++ 58 :: text.elements.port := by
  rcases hostAndPort_cases text.address_chars with
    hWhole | ⟨host, port, -, hPort, hAddress, hCut⟩
  · refine Or.inl ⟨?_, ?_⟩
    · simp [elements, hWhole]
    · simp [elements, hWhole, defaultPort]
  · apply Or.inr
    simp only [elements, hCut, if_neg hPort.nonempty]
    exact hAddress

/- Elements that hold all the text leave nothing to skip. -/
theorem skipped_eq_nil_of_accountsFor
    {skipped : Bytes}
    {text : UriText}
    (hStart :
      boostLineBreaks.startsLine skipped.reverse text.bytes =
        true)
    (hAccounts :
      AccountsFor text.elements (skipped ++ text.bytes)) :
    skipped = [] := by
  obtain ⟨hScheme, hForms⟩ := hAccounts
  have hDefault :
      (defaultPort text.protocol).length <
        text.protocol.length :=
    defaultPort_length hScheme
  have hTexts := text.elements_cases
  rcases hForms with hUri | hUri
  · refine skipped_eq_nil hStart ?_
      (hUri.trans (by simp only [List.append_assoc]; rfl))
    have hLength := congrArg List.length hUri
    simp only [UriText.bytes, UriText.afterProtocol,
      UriText.elements_protocol, UriText.elements_urn,
      List.length_append] at hLength
    rcases hTexts with ⟨hAddr, -⟩ | hAddress
    · rw [hAddr] at hLength
      omega
    · have hCut := congrArg List.length hAddress
      rw [List.length_append] at hCut
      omega
  · refine skipped_eq_nil hStart ?_
      (hUri.trans (by simp only [List.append_assoc]; rfl))
    have hLength := congrArg List.length hUri
    simp only [UriText.bytes, UriText.afterProtocol,
      UriText.elements_protocol, UriText.elements_urn,
      List.length_append, List.length_cons] at hLength
    rcases hTexts with ⟨hAddr, hPort⟩ | hAddress
    · -- a default port takes no room in the text itself
      rw [hAddr, hPort] at hLength
      omega
    · have hCut := congrArg List.length hAddress
      rw [List.length_append, List.length_cons] at hCut
      omega

/- A text that begins with a scheme is a text of the form. -/
theorem uriText_of_beginsWithScheme
    {uri : Bytes}
    (hBegins : BeginsWithScheme uri) :
    ∃ text : UriText,
      uri = text.bytes ∧ IsScheme text.protocol := by
  obtain ⟨scheme, address, rest, hScheme, hChars, hLength,
    rfl⟩ := hBegins
  have hRun :
      (address ++ rest).takeWhile isAddressChar =
        address ++ rest.takeWhile isAddressChar :=
    List.takeWhile_append_of_pos hChars
  refine
    ⟨{ protocol := scheme
       address := (address ++ rest).takeWhile isAddressChar
       tail := (address ++ rest).dropWhile isAddressChar
       protocol_chars := hScheme.protocol_chars
       protocol_length := hScheme.length
       address_chars := fun c hMem =>
         List.mem_takeWhile_imp hMem
       address_length := by
         rw [hRun, List.length_append]
         omega
       tail_head := fun c hHead =>
         head?_dropWhile_of_mem hHead },
      ?_, hScheme⟩
  simp only [UriText.bytes, UriText.afterProtocol,
    List.takeWhile_append_dropWhile, List.append_assoc]

/- Elements hold all of a text of the form. -/
theorem accountsFor_bytes
    {text : UriText}
    (hScheme : IsScheme text.protocol) :
    AccountsFor text.elements text.bytes := by
  refine ⟨hScheme, ?_⟩
  rcases text.elements_cases with ⟨hAddr, -⟩ | hAddress
  · apply Or.inl
    rw [hAddr, UriText.bytes, UriText.afterProtocol]
    simp only [UriText.elements_protocol,
      UriText.elements_urn, List.append_assoc]
  · apply Or.inr
    rw [UriText.bytes, UriText.afterProtocol, hAddress]
    simp only [UriText.elements_protocol,
      UriText.elements_urn, List.append_assoc,
      List.cons_append]

/-
  The elements of an accepted URI hold all of it exactly when
  it begins with a scheme and an address.
-/
theorem proccessUri_accountsFor_iff
    {uri : Bytes}
    {elements : Elements}
    (hUri : proccessUri uri = some elements) :
    AccountsFor elements uri ↔ BeginsWithScheme uri := by
  constructor
  · intro hAccounts
    obtain ⟨skipped, text, rfl, hStart, rfl⟩ :=
      uriText_of_proccessUri hUri
    have hSkipped :=
      skipped_eq_nil_of_accountsFor hStart hAccounts
    rw [hSkipped, List.nil_append]
    exact ⟨text.protocol, text.address, text.tail,
      hAccounts.1, text.address_chars, text.address_length,
      by simp only [UriText.bytes, UriText.afterProtocol,
        List.append_assoc]⟩
  · intro hBegins
    obtain ⟨text, rfl, hScheme⟩ :=
      uriText_of_beginsWithScheme hBegins
    rw [proccessUri_text, Option.some.injEq] at hUri
    exact hUri ▸ accountsFor_bytes hScheme

theorem proccessUri_accountsFor_iff_path :
    AccountsFor
        { addr := ascii "a.b"
          port := ascii "81"
          protocol := ascii "http"
          urn := ascii "/" }
        (ascii "http://a.b:81/") ↔
      BeginsWithScheme (ascii "http://a.b:81/") :=
  proccessUri_accountsFor_iff (by decide +kernel)

/-
  The letters of the protocol may be out of order, and a line
  that does not begin with one is passed over.
-/
theorem proccessUri_skips_line :
    proccessUri (ascii "x
http://abc") =
        some
          { addr := ascii "abc"
            port := ascii "80"
            protocol := ascii "http"
            urn := [] } ∧
      ¬ AccountsFor
          { addr := ascii "abc"
            port := ascii "80"
            protocol := ascii "http"
            urn := [] }
          (ascii "x
http://abc") ∧
      proccessUri (ascii "tttt://abc") =
        some
          { addr := ascii "abc"
            port := ascii "80"
            protocol := ascii "tttt"
            urn := [] } ∧
      ¬ AccountsFor
          { addr := ascii "abc"
            port := ascii "80"
            protocol := ascii "tttt"
            urn := [] }
          (ascii "tttt://abc") := by
  refine ⟨by decide +kernel, ?_, by decide +kernel, ?_⟩
  · unfold AccountsFor IsScheme
    decide +kernel
  · unfold AccountsFor IsScheme
    decide +kernel

end Network
