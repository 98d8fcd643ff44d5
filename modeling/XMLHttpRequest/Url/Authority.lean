import XMLHttpRequest.Library.Scanner
import XMLHttpRequest.Url.UrlParts

/-
  Which server parts `http_parse_host` accepts.

  A server part is made of user information up to an `@`, a
  name or an address in brackets, and a port.  The states of
  the scan follow these parts.

  Key definitions include:
    * `Network.HostSpelling`
    * `Network.Authority`

  Key theorems include:
    * `Network.host_of_accepted`
    * `Network.exists_authority_of_accepted`
-/

------------------------------------------------------------
-- Server Parts
------------------------------------------------------------

namespace Network

/- A character of an IPv6 address. -/
def isAddressByte (c : UInt8) : Bool :=
  isHex c || c = 58 || c = 46

/- A host by its name, or by an address with a zone. -/
inductive HostSpelling
  | name
      (text : Bytes)
      (nonempty : text ≠ [])
      (chars : ∀ c ∈ text, isHostChar c = true)
  | address
      (text : Bytes)
      (zone : Option Bytes)
      (nonempty : text ≠ [])
      (chars : ∀ c ∈ text, isAddressByte c = true)
      (zone_nonempty : ∀ z ∈ zone, z ≠ [])
      (zone_chars : ∀ z ∈ zone, ∀ c ∈ z, isZoneChar c = true)

namespace HostSpelling

/- The host without its brackets. -/
def text : HostSpelling → Bytes
  | name text _ _ => text
  | address text zone _ _ _ _ => text ++ UrlText.marked 37 zone

/- What stands before the host. -/
def opening : HostSpelling → Bytes
  | name _ _ _ => []
  | address _ _ _ _ _ _ => [91]

def closing : HostSpelling → Bytes
  | name _ _ _ => []
  | address _ _ _ _ _ _ => [93]

def bytes (host : HostSpelling) : Bytes :=
  host.opening ++ host.text ++ host.closing

/- The state in which the host ends. -/
def endState : HostSpelling → HostState
  | name _ _ _ => .host
  | address _ _ _ _ _ _ => .hostV6End

end HostSpelling

structure Authority where
  userinfo : Option Bytes := none
  host : HostSpelling
  port : Option Bytes := none
  userinfo_chars :
    ∀ text ∈ userinfo, ∀ c ∈ text, isUserinfoChar c = true
  port_digits : ∀ text ∈ port, IsPort text

namespace Authority

variable (authority : Authority)

/- The user information with its mark. -/
def userinfoText : Bytes :=
  match authority.userinfo with
  | none => []
  | some text => text ++ [64]

def bytes : Bytes :=
  authority.userinfoText ++
    (authority.host.bytes ++
      UrlText.marked 58 authority.port)

/- The state in which the scan begins. -/
def startState : HostState :=
  if authority.userinfo.isSome then .userinfoStart
  else .hostStart

end Authority

end Network

------------------------------------------------------------
-- States of the Host
------------------------------------------------------------

namespace Network

open Scanner (scan)

theorem httpParseHostChar_absorbing :
    Scanner.Absorbing httpParseHostChar .dead := by
  intro c
  rfl

theorem alive_of_accepting
    {s : HostState}
    (hAccepting : s.accepting = true) :
    s ≠ .dead := by
  rintro rfl
  cases hAccepting

/- Only a colon goes on behind a host. -/
theorem httpParseHostChar_behind
    {s : HostState}
    {c : UInt8}
    (hState : s = .host ∨ s = .hostV6End)
    (hEnd : s = .host → isHostChar c = false)
    (hAlive : httpParseHostChar s c ≠ .dead) :
    c = 58 ∧ httpParseHostChar s c = .hostPortStart := by
  rcases hState with rfl | rfl <;>
    simp only [httpParseHostChar] at hAlive ⊢ <;> grind

theorem reads_port (text : Bytes) :
    Scanner.Reads httpParseHostChar .dead
      (fun s => s = .hostPortStart ∨ s = .hostPort)
      (isDigit · = true) text where
  absorbing := httpParseHostChar_absorbing
  alive := by simp
  reads := by
    intro c _ s hState hDigit
    rcases hState with rfl | rfl <;>
      simp [httpParseHostChar, hDigit]
  fatal := by
    intro c _ s hState hOther
    rcases hState with rfl | rfl <;>
      simp [httpParseHostChar, hOther]

theorem reads_userinfo
    {text : Bytes}
    (hText : ∀ c ∈ text, c ≠ 64) :
    Scanner.Reads httpParseHostChar .dead
      (fun s => s = .userinfoStart ∨ s = .userinfo)
      (isUserinfoChar · = true) text where
  absorbing := httpParseHostChar_absorbing
  alive := by simp
  reads := by
    intro c hMem s hState hUserinfo
    rcases hState with rfl | rfl <;>
      simp [httpParseHostChar, hUserinfo, hText c hMem]
  fatal := by
    intro c hMem s hState hOther
    rcases hState with rfl | rfl <;>
      simp [httpParseHostChar, hOther, hText c hMem]

/- An optional port behind a host. -/
theorem port_of_accepted
    {s : HostState}
    (hState : s = .host ∨ s = .hostV6End)
    {rest : Bytes}
    (hEnd :
      s = .host → ∀ c ∈ rest.head?, isHostChar c = false)
    (hAccepted :
      (scan httpParseHostChar s rest).accepting = true) :
    ∃ port : Option Bytes,
      rest = UrlText.marked 58 port ∧
        ∀ text ∈ port, IsPort text := by
  cases rest with
  | nil => exact ⟨none, rfl, nofun⟩
  | cons c digits =>
      rw [Scanner.scan_cons] at hAccepted
      have hAlive : httpParseHostChar s c ≠ .dead := by
        intro hDead
        rw [hDead,
          Scanner.scan_dead httpParseHostChar_absorbing]
          at hAccepted
        cases hAccepted
      rcases httpParseHostChar_behind hState
          (fun hHost => hEnd hHost c rfl) hAlive with
        ⟨rfl, hNext⟩
      rw [hNext] at hAccepted
      have hDigits :=
        ((reads_port digits).alive_iff (.inl rfl)).mp
          (alive_of_accepting hAccepted)
      refine ⟨some digits, rfl, ?_⟩
      intro text hText
      rw [← Option.some.inj hText]
      refine ⟨?_, hDigits⟩
      rintro rfl
      cases hAccepted

end Network

------------------------------------------------------------
-- Accepted Hosts
------------------------------------------------------------

namespace Network

open Scanner (scan)

/- The scan of an accepted text has not died on the way. -/
theorem alive_of_accepted
    {s : HostState}
    {c : UInt8}
    {rest : Bytes}
    (hAccepted :
      (scan httpParseHostChar s (c :: rest)).accepting =
        true) :
    httpParseHostChar s c ≠ .dead := by
  intro hDead
  rw [Scanner.scan_cons, hDead,
    Scanner.scan_dead httpParseHostChar_absorbing] at hAccepted
  cases hAccepted

/- The first character of a class, and those that follow. -/
theorem scan_class
    {start inside : HostState}
    {accepts : UInt8 → Bool}
    (hEnter :
      ∀ c, accepts c = true →
        httpParseHostChar start c = inside)
    (hStay :
      ∀ c, accepts c = true →
        httpParseHostChar inside c = inside)
    {text : Bytes}
    (hNonempty : text ≠ [])
    (hText : ∀ c ∈ text, accepts c = true) :
    scan httpParseHostChar start text = inside := by
  cases text with
  | nil => exact absurd rfl hNonempty
  | cons c rest =>
      rw [List.forall_mem_cons] at hText
      rw [Scanner.scan_cons, hEnter c hText.1]
      have hInside :
          scan httpParseHostChar inside rest = inside := by
        have hStep :
            ∀ d ∈ rest, ∀ s, s = inside →
              httpParseHostChar s d = inside := by
          rintro d hMem _ rfl
          exact hStay d (hText.2 d hMem)
        exact Scanner.stays hStep rfl
      exact hInside

theorem httpParseHostChar_name
    {c : UInt8}
    (hHost : isHostChar c = true) :
    httpParseHostChar .hostStart c = .host ∧
      httpParseHostChar .host c = .host := by
  have hBracket : isHostChar 91 = false := by decide
  simp only [httpParseHostChar]
  grind

theorem httpParseHostChar_address
    {c : UInt8}
    (hAddress : isAddressByte c = true) :
    httpParseHostChar .hostV6Start c = .hostV6 ∧
      httpParseHostChar .hostV6 c = .hostV6 := by
  have hBracket : isAddressByte 93 = false := by decide
  simp only [httpParseHostChar, isAddressByte]
    at hAddress hBracket ⊢
  grind

theorem httpParseHostChar_zone
    {c : UInt8}
    (hZone : isZoneChar c = true) :
    httpParseHostChar .hostV6ZoneStart c = .hostV6Zone ∧
      httpParseHostChar .hostV6Zone c = .hostV6Zone := by
  have hBracket : isZoneChar 93 = false := by decide
  simp only [httpParseHostChar]
  grind

/- What ends an address, or a zone. -/
theorem httpParseHostChar_closes
    {c : UInt8}
    (hOther : isAddressByte c = false)
    (hAlive : httpParseHostChar .hostV6 c ≠ .dead) :
    (c = 93 ∧ httpParseHostChar .hostV6 c = .hostV6End) ∨
      (c = 37 ∧
        httpParseHostChar .hostV6 c = .hostV6ZoneStart) := by
  simp only [httpParseHostChar, isAddressByte]
    at hOther hAlive ⊢
  grind

theorem httpParseHostChar_endsZone
    {c : UInt8}
    (hOther : isZoneChar c = false)
    (hAlive : httpParseHostChar .hostV6Zone c ≠ .dead) :
    c = 93 ∧ httpParseHostChar .hostV6Zone c = .hostV6End := by
  simp only [httpParseHostChar] at hAlive ⊢
  grind

/- A zone up to its bracket. -/
theorem zone_of_accepted
    {text : Bytes}
    (hAccepted :
      (scan httpParseHostChar .hostV6ZoneStart
        text).accepting = true) :
    ∃ zone rest,
      text = zone ++ 93 :: rest ∧ zone ≠ [] ∧
        (∀ c ∈ zone, isZoneChar c = true) ∧
          (scan httpParseHostChar .hostV6End rest).accepting =
            true := by
  rcases Scanner.cut isZoneChar text with
    ⟨zone, tail, rfl, hZone, hTail⟩
  by_cases hEmpty : zone = []
  · subst hEmpty
    cases tail with
    | nil => cases hAccepted
    | cons c rest =>
        have hOther := hTail c rfl
        have hDead :
            httpParseHostChar .hostV6ZoneStart c = .dead := by
          simp [httpParseHostChar, hOther]
        exact absurd hDead (alive_of_accepted hAccepted)
  · rw [Scanner.scan_append,
      scan_class (fun c hC => (httpParseHostChar_zone hC).1)
        (fun c hC => (httpParseHostChar_zone hC).2) hEmpty
        hZone] at hAccepted
    cases tail with
    | nil => cases hAccepted
    | cons c rest =>
        rcases httpParseHostChar_endsZone (hTail c rfl)
            (alive_of_accepted hAccepted) with ⟨rfl, hNext⟩
        rw [Scanner.scan_cons, hNext] at hAccepted
        exact ⟨zone, rest, rfl, hEmpty, hZone, hAccepted⟩

/- An address behind its opening bracket, and a port. -/
theorem address_of_accepted
    {text : Bytes}
    (hAccepted :
      (scan httpParseHostChar .hostV6Start
        text).accepting = true) :
    ∃ (host : HostSpelling) (port : Option Bytes),
      91 :: text = host.bytes ++ UrlText.marked 58 port ∧
        ∀ digits ∈ port, IsPort digits := by
  rcases Scanner.cut isAddressByte text with
    ⟨address, tail, rfl, hAddress, hTail⟩
  by_cases hEmpty : address = []
  · subst hEmpty
    cases tail with
    | nil => cases hAccepted
    | cons c rest =>
        have hOther := hTail c rfl
        have hDead :
            httpParseHostChar .hostV6Start c = .dead := by
          simp only [httpParseHostChar, isAddressByte]
            at hOther ⊢
          rw [hOther]
          rfl
        exact absurd hDead (alive_of_accepted hAccepted)
  · rw [Scanner.scan_append,
      scan_class (fun c hC => (httpParseHostChar_address hC).1)
        (fun c hC => (httpParseHostChar_address hC).2) hEmpty
        hAddress] at hAccepted
    cases tail with
    | nil => cases hAccepted
    | cons c rest =>
        rcases httpParseHostChar_closes (hTail c rfl)
            (alive_of_accepted hAccepted) with
          ⟨rfl, hNext⟩ | ⟨rfl, hNext⟩
        · rw [Scanner.scan_cons, hNext] at hAccepted
          rcases port_of_accepted (.inr rfl)
              (fun hHost => by cases hHost) hAccepted
            with ⟨port, rfl, hPort⟩
          refine ⟨.address address none hEmpty hAddress
            (by simp) (by simp), port, ?_, hPort⟩
          simp [HostSpelling.bytes, HostSpelling.opening,
            HostSpelling.text, HostSpelling.closing,
            UrlText.marked]
        · rw [Scanner.scan_cons, hNext] at hAccepted
          rcases zone_of_accepted hAccepted with
            ⟨zone, behind, rfl, hSome, hZone, hEnd⟩
          rcases port_of_accepted (.inr rfl)
              (fun hHost => by cases hHost) hEnd
            with ⟨port, rfl, hPort⟩
          refine ⟨.address address (some zone) hEmpty hAddress
            (by simpa using hSome) (by simpa using hZone),
            port, ?_, hPort⟩
          simp [HostSpelling.bytes, HostSpelling.opening,
            HostSpelling.text, HostSpelling.closing,
            UrlText.marked]

theorem host_of_accepted
    {text : Bytes}
    (hAccepted :
      (scan httpParseHostChar .hostStart
        text).accepting = true) :
    ∃ (host : HostSpelling) (port : Option Bytes),
      text = host.bytes ++ UrlText.marked 58 port ∧
        ∀ digits ∈ port, IsPort digits := by
  rcases Scanner.cut isHostChar text with
    ⟨name, tail, rfl, hName, hTail⟩
  by_cases hEmpty : name = []
  · subst hEmpty
    cases tail with
    | nil => cases hAccepted
    | cons c rest =>
        have hAlive := alive_of_accepted hAccepted
        have hOther := hTail c rfl
        have hBracket : c = 91 := by
          by_contra hNot
          exact hAlive (by
            simp [httpParseHostChar, hNot, hOther])
        subst hBracket
        have hOpens :
            httpParseHostChar .hostStart 91 = .hostV6Start := by
          decide
        rw [List.nil_append, Scanner.scan_cons, hOpens]
          at hAccepted
        exact address_of_accepted hAccepted
  · rw [Scanner.scan_append,
      scan_class (fun c hC => (httpParseHostChar_name hC).1)
        (fun c hC => (httpParseHostChar_name hC).2) hEmpty
        hName] at hAccepted
    rcases port_of_accepted (.inl rfl) (fun _ => hTail)
        hAccepted with ⟨port, rfl, hPort⟩
    refine ⟨.name name hEmpty hName, port, ?_, hPort⟩
    simp [HostSpelling.bytes, HostSpelling.opening,
      HostSpelling.text, HostSpelling.closing]

/- A text is accepted as a server part if it is spelled so. -/
theorem exists_authority_of_accepted
    {text : Bytes}
    {foundAt : Bool}
    (hFound : foundAt = decide ((64 : UInt8) ∈ text))
    (hAccepted :
      (scan httpParseHostChar
        (if foundAt then .userinfoStart else .hostStart)
        text).accepting = true) :
    ∃ authority : Authority, text = authority.bytes := by
  subst hFound
  by_cases hAt : (64 : UInt8) ∈ text
  · rw [decide_eq_true hAt, if_pos rfl] at hAccepted
    rcases Scanner.cut (fun c => decide (c ≠ 64)) text with
      ⟨userinfo, tail, rfl, hUserinfo, hTail⟩
    have hOther : ∀ c ∈ userinfo, c ≠ 64 := by
      simpa using hUserinfo
    cases tail with
    | nil =>
        rw [List.append_nil] at hAt
        exact absurd rfl (hOther 64 hAt)
    | cons c rest =>
        have hMark : c = 64 := by simpa using hTail c rfl
        subst hMark
        have hReads := reads_userinfo hOther
        have hAlive := alive_of_accepting hAccepted
        rw [Scanner.alive_append_iff
          httpParseHostChar_absorbing] at hAlive
        have hChars :=
          (hReads.alive_iff (.inl rfl)).mp hAlive.1
        have hGroup := hReads.closed (.inl rfl) hChars
        have hNext :
            httpParseHostChar
                (scan httpParseHostChar .userinfoStart
                  userinfo) 64 = .hostStart := by
          rcases hGroup with hState | hState <;>
            rw [hState] <;> decide
        rw [Scanner.scan_append, Scanner.scan_cons, hNext]
          at hAccepted
        rcases host_of_accepted hAccepted with
          ⟨host, port, rfl, hPort⟩
        refine ⟨
          { userinfo := some userinfo
            host := host
            port := port
            userinfo_chars := by simpa using hChars
            port_digits := hPort }, ?_⟩
        simp [Authority.bytes, Authority.userinfoText]
  · rw [decide_eq_false hAt, if_neg Bool.false_ne_true]
      at hAccepted
    rcases host_of_accepted hAccepted with
      ⟨host, port, rfl, hPort⟩
    refine ⟨
      { host := host
        port := port
        userinfo_chars := by simp
        port_digits := hPort }, ?_⟩
    simp [Authority.bytes, Authority.userinfoText]

end Network
