import XMLHttpRequest.Url.Authority

/-
  What `http_parse_host` records of a server part.

  Each part fills its own field: its first character places
  the field, and every other one makes it longer.

  Key definitions include:
    * `Network.Fills`
    * `Network.Authority.fields`

  Key theorems include:
    * `Network.HostScan.readAt_run`
    * `Network.Authority.loop_bytes`
-/

------------------------------------------------------------
-- Fields That Are Filled
------------------------------------------------------------

namespace Network

/- One field becomes that of a part, the others stay. -/
structure Fills
    (before : HttpParserUrl)
    (field : UrlField)
    (start : Nat)
    (part : Bytes)
    (after : HttpParserUrl) : Prop where
  filled : after.fieldData field = fieldAt start part
  others :
    ∀ other, other ≠ field →
      after.fieldData other = before.fieldData other

variable {u v : HttpParserUrl}
variable {field : UrlField}
variable {start : Nat}
variable {part : Bytes}

theorem Fills.refl
    (hField : u.fieldData field = fieldAt start part) :
    Fills u field start part u where
  filled := hField
  others _ _ := rfl

theorem Fills.trans
    {longer : Bytes}
    {w : HttpParserUrl}
    (hFirst : Fills u field start part v)
    (hNext : Fills v field start longer w) :
    Fills u field start longer w where
  filled := hNext.filled
  others other hOther :=
    (hNext.others other hOther).trans
      (hFirst.others other hOther)

/- A longer field is that of a longer part. -/
theorem Fills.grow
    (hField : u.fieldData field = fieldAt start part)
    (hPart : part ≠ [])
    (c : UInt8) :
    Fills u field start (part ++ [c])
      (u.changeField field FieldData.grow) where
  filled := by
    rw [fieldAt_concat]
    simp only [HttpParserUrl.changeField,
      Function.update_self, hField, fieldAt, if_neg hPart,
      Option.map_some, FieldData.grow]
    congr 2
    simp only [toUint16]
    omega
  others _ hOther := Function.update_of_ne hOther _ _

/- A field that a first character places. -/
theorem Fills.place
    (u : HttpParserUrl)
    (field : UrlField)
    (p : Nat)
    (c : UInt8) :
    Fills u field p [c]
      (u.setField field (FieldData.start p 1)) where
  filled := Function.update_self field _ u.fieldData
  others _ hOther := Function.update_of_ne hOther _ _

end Network

------------------------------------------------------------
-- Runs of Characters
------------------------------------------------------------

namespace Network

open Scanner (scan readAt)

namespace HostScan

variable {field : UrlField}
variable {u : HttpParserUrl}
variable {p start : Nat}
variable {text part : Bytes}

theorem loop_eq_readAt
    (scan : HostScan)
    (p : Nat)
    (buf : Bytes) :
    scan.loop p buf = readAt char scan p buf := by
  induction buf generalizing scan p with
  | nil => rfl
  | cons ch buf ih =>
      rw [loop, readAt]
      congr 1
      funext next
      exact ih next (p + 1)

/- Characters that make a field longer, and nothing else. -/
theorem readAt_grows
    {inside : HostState}
    {accepts : UInt8 → Bool}
    (hStay :
      ∀ c, accepts c = true → ∀ p u,
        char ⟨inside, u⟩ p c =
          some ⟨inside, u.changeField field FieldData.grow⟩)
    (hText : ∀ c ∈ text, accepts c = true)
    (hField : u.fieldData field = fieldAt start part)
    (hPart : part ≠ []) :
    ∃ v,
      readAt char ⟨inside, u⟩ p text = some ⟨inside, v⟩ ∧
        Fills u field start (part ++ text) v := by
  induction text generalizing u p part with
  | nil =>
      refine ⟨u, rfl, .refl ?_⟩
      rw [List.append_nil]
      exact hField
  | cons c text ih =>
      rw [List.forall_mem_cons] at hText
      have hGrown := Fills.grow hField hPart c
      rcases ih (p := p + 1) hText.2 hGrown.filled (by simp)
        with ⟨v, hRead, hFills⟩
      refine ⟨v, ?_, ?_⟩
      · rw [readAt, hStay c hText.1, Option.bind_some]
        exact hRead
      · rw [List.append_cons]
        exact hGrown.trans hFills

/- A first character places a field, the others follow. -/
theorem readAt_run
    {outside inside : HostState}
    {accepts : UInt8 → Bool}
    (hEnter :
      ∀ c, accepts c = true →
        ∃ v, char ⟨outside, u⟩ p c = some ⟨inside, v⟩ ∧
          Fills u field p [c] v)
    (hStay :
      ∀ c, accepts c = true → ∀ p u,
        char ⟨inside, u⟩ p c =
          some ⟨inside, u.changeField field FieldData.grow⟩)
    (hNonempty : text ≠ [])
    (hText : ∀ c ∈ text, accepts c = true) :
    ∃ v,
      readAt char ⟨outside, u⟩ p text = some ⟨inside, v⟩ ∧
        Fills u field p text v := by
  cases text with
  | nil => exact absurd rfl hNonempty
  | cons c text =>
      rw [List.forall_mem_cons] at hText
      rcases hEnter c hText.1 with ⟨v, hFirst, hPlaced⟩
      rcases readAt_grows (p := p + 1) hStay hText.2
          hPlaced.filled (by simp) with ⟨w, hRest, hFills⟩
      refine ⟨w, ?_, hPlaced.trans hFills⟩
      rw [readAt, hFirst, Option.bind_some]
      exact hRest

end HostScan

end Network

------------------------------------------------------------
-- Parts of an Authority
------------------------------------------------------------

namespace Network

open Scanner (readAt)

namespace HostScan

variable {u : HttpParserUrl}
variable {p : Nat}

/- The field of a host that has not begun is empty. -/
def AwaitsHost (u : HttpParserUrl) : Prop :=
  ∃ off, u.fieldData .host = some ⟨off, 0⟩

/- Inside of a host its field grows. -/
theorem char_insideHost
    {s : HostState}
    (hInside : s = .host ∨ s = .hostV6)
    {c : UInt8}
    (hNext : httpParseHostChar s c = s)
    (p : Nat)
    (u : HttpParserUrl) :
    char ⟨s, u⟩ p c =
      some ⟨s, u.changeField .host FieldData.grow⟩ := by
  rcases hInside with rfl | rfl <;>
    simp [char, hNext, extendHost]

/- The first character of a host places its field. -/
theorem char_entersHost
    {outside inside : HostState}
    (hInside : inside = .host ∨ inside = .hostV6)
    (hOutside : outside ≠ inside)
    {c : UInt8}
    (hNext : httpParseHostChar outside c = inside)
    (hAwaits : AwaitsHost u) :
    ∃ v, char ⟨outside, u⟩ p c = some ⟨inside, v⟩ ∧
      Fills u .host p [c] v := by
  rcases hAwaits with ⟨off, hEmpty⟩
  have hField :
      (extendHost ⟨outside, u⟩ inside p).fieldData .host =
        fieldAt p [c] := by
    simp [extendHost, HttpParserUrl.changeField, hEmpty,
      hOutside, FieldData.grow, fieldAt, toUint16]
  refine ⟨extendHost ⟨outside, u⟩ inside p, ?_,
    hField, ?_⟩
  · rcases hInside with rfl | rfl <;>
      simp [char, hNext]
  · exact fun _ hOther => Function.update_of_ne hOther _ _

theorem readAt_name
    {text : Bytes}
    (hAwaits : AwaitsHost u)
    (hNonempty : text ≠ [])
    (hText : ∀ c ∈ text, isHostChar c = true) :
    ∃ v,
      readAt char ⟨.hostStart, u⟩ p text =
          some ⟨.host, v⟩ ∧
        Fills u .host p text v := by
  refine readAt_run ?_ ?_ hNonempty hText
  · intro c hChar
    have hNext := (httpParseHostChar_name hChar).1
    exact char_entersHost (.inl rfl) (by decide) hNext hAwaits
  · intro c hChar
    exact char_insideHost (.inl rfl)
      (httpParseHostChar_name hChar).2

theorem readAt_address
    {text : Bytes}
    (hAwaits : AwaitsHost u)
    (hNonempty : text ≠ [])
    (hText : ∀ c ∈ text, isAddressByte c = true) :
    ∃ v,
      readAt char ⟨.hostV6Start, u⟩ p text =
          some ⟨.hostV6, v⟩ ∧
        Fills u .host p text v := by
  refine readAt_run ?_ ?_ hNonempty hText
  · intro c hChar
    have hNext := (httpParseHostChar_address hChar).1
    exact char_entersHost (.inr rfl) (by decide) hNext hAwaits
  · intro c hChar
    exact char_insideHost (.inr rfl)
      (httpParseHostChar_address hChar).2

/- A zone and its percent sign belong to the host. -/
theorem readAt_zone
    {zone text : Bytes}
    {start : Nat}
    (hField : u.fieldData .host = fieldAt start text)
    (hText : text ≠ [])
    (hNonempty : zone ≠ [])
    (hZone : ∀ c ∈ zone, isZoneChar c = true) :
    ∃ v,
      readAt char ⟨.hostV6, u⟩ p (37 :: zone) =
          some ⟨.hostV6Zone, v⟩ ∧
        Fills u .host start (text ++ 37 :: zone) v := by
  have hPercent :
      httpParseHostChar .hostV6 37 = .hostV6ZoneStart := by
    decide
  have hSign := Fills.grow hField hText 37
  cases zone with
  | nil => exact absurd rfl hNonempty
  | cons c zone =>
      rw [List.forall_mem_cons] at hZone
      have hEnter := (httpParseHostChar_zone hZone.1).1
      have hFirst := Fills.grow hSign.filled (by simp) c
      have hStay
          (d : UInt8)
          (hD : isZoneChar d = true)
          (p : Nat)
          (u : HttpParserUrl) :
          char ⟨.hostV6Zone, u⟩ p d =
            some ⟨.hostV6Zone,
              u.changeField .host FieldData.grow⟩ := by
        simp [char, (httpParseHostChar_zone hD).2]
      rcases readAt_grows (p := p + 1 + 1) hStay hZone.2
          hFirst.filled (by simp) with ⟨v, hRead, hFills⟩
      refine ⟨v, ?_, ?_⟩
      · simpa [readAt, char, hPercent, hEnter] using hRead
      · rw [List.append_cons, List.append_cons]
        exact (hSign.trans hFirst).trans hFills

/- User information, which may be empty, up to its mark. -/
theorem readAt_userinfo
    {text : Bytes}
    (hNone : u.fieldData .userinfo = none)
    (hText : ∀ c ∈ text, isUserinfoChar c = true) :
    ∃ v,
      readAt char ⟨.userinfoStart, u⟩ p (text ++ [64]) =
          some ⟨.hostStart, v⟩ ∧
        Fills u .userinfo p text v := by
  have hMark
      {s : HostState}
      (hState : s = .userinfoStart ∨ s = .userinfo)
      (p : Nat)
      (v : HttpParserUrl) :
      readAt char ⟨s, v⟩ p [64] = some ⟨.hostStart, v⟩ := by
    rcases hState with rfl | rfl <;> rfl
  have hNotMark
      (c : UInt8)
      (hChar : isUserinfoChar c = true) :
      c ≠ 64 := by
    rintro rfl
    exact absurd hChar (by decide)
  by_cases hEmpty : text = []
  · subst hEmpty
    exact ⟨u, hMark (.inl rfl) p u, .refl hNone⟩
  · have hRun :
        ∃ v,
          readAt char ⟨.userinfoStart, u⟩ p text =
              some ⟨.userinfo, v⟩ ∧
            Fills u .userinfo p text v := by
      refine readAt_run ?_ ?_ hEmpty hText
      · intro c hChar
        refine ⟨u.setField .userinfo (.start p 1), ?_,
          .place u .userinfo p c⟩
        simp [char, httpParseHostChar, hChar,
          hNotMark c hChar, extend]
      · intro c hChar p u
        simp [char, httpParseHostChar, hChar,
          hNotMark c hChar, extend]
    rcases hRun with ⟨v, hRead, hFills⟩
    refine ⟨v, ?_, hFills⟩
    rw [Scanner.readAt_append, hRead]
    exact hMark (.inr rfl) (p + text.length) v

/- The end of a host, and a port behind it. -/
theorem readAt_port
    {s : HostState}
    (hState : s = .host ∨ s = .hostV6End)
    (hNone : u.fieldData .port = none)
    {port : Option Bytes}
    (hDigits : ∀ text ∈ port, IsPort text) :
    ∃ last,
      readAt char ⟨s, u⟩ p (UrlText.marked 58 port) =
          some last ∧
        last.s.accepting = true ∧
          Fills u .port (p + 1) (port.getD []) last.u := by
  cases port with
  | none =>
      refine ⟨⟨s, u⟩, rfl, ?_, .refl hNone⟩
      rcases hState with rfl | rfl <;> rfl
  | some digits =>
      have hPort := hDigits digits rfl
      have hColon :
          char ⟨s, u⟩ p 58 = some ⟨.hostPortStart, u⟩ := by
        rcases hState with rfl | rfl <;> rfl
      have hRun :
          ∃ v,
            readAt char ⟨.hostPortStart, u⟩ (p + 1) digits =
                some ⟨.hostPort, v⟩ ∧
              Fills u .port (p + 1) digits v := by
        refine readAt_run ?_ ?_ hPort.nonempty hPort.chars
        · intro c hChar
          refine ⟨u.setField .port (.start (p + 1) 1), ?_,
            .place u .port (p + 1) c⟩
          simp [char, httpParseHostChar, hChar, extend]
        · intro c hChar p u
          simp [char, httpParseHostChar, hChar, extend]
      rcases hRun with ⟨v, hRead, hFills⟩
      refine ⟨⟨.hostPort, v⟩, ?_, rfl, hFills⟩
      rw [UrlText.marked, readAt, hColon, Option.bind_some]
      exact hRead

end HostScan

end Network

------------------------------------------------------------
-- Whole Authorities
------------------------------------------------------------

namespace Network

open Scanner (readAt)

theorem HostScan.readAt_host
    (host : HostSpelling)
    {u : HttpParserUrl}
    (hAwaits : AwaitsHost u)
    (p : Nat) :
    ∃ v,
      readAt char ⟨.hostStart, u⟩ p host.bytes =
          some ⟨host.endState, v⟩ ∧
        Fills u .host (p + host.opening.length) host.text
          v := by
  cases host with
  | name text hNonempty hChars =>
      have hBytes :
          (HostSpelling.name text hNonempty hChars).bytes =
            text := by
        simp [HostSpelling.bytes, HostSpelling.opening,
          HostSpelling.text, HostSpelling.closing]
      rw [hBytes]
      exact readAt_name hAwaits hNonempty hChars
  | address text zone hNonempty hChars hSome hZone =>
      have hClose
          {s : HostState}
          (hState : s = .hostV6 ∨ s = .hostV6Zone)
          (p : Nat)
          (v : HttpParserUrl) :
          readAt char ⟨s, v⟩ p [93] =
            some ⟨.hostV6End, v⟩ := by
        rcases hState with rfl | rfl <;> rfl
      have hOpen :
          char ⟨.hostStart, u⟩ p 91 =
            some ⟨.hostV6Start, u⟩ := rfl
      rcases readAt_address (p := p + 1) hAwaits hNonempty
          hChars with ⟨v, hRead, hFills⟩
      cases zone with
      | none =>
          refine ⟨v, ?_, ?_⟩
          · have hBytes :
                (HostSpelling.address text none hNonempty
                    hChars hSome hZone).bytes =
                  91 :: (text ++ [93]) := by
              simp [HostSpelling.bytes, HostSpelling.opening,
                HostSpelling.text, HostSpelling.closing,
                UrlText.marked]
            rw [hBytes, readAt, hOpen, Option.bind_some,
              Scanner.readAt_append, hRead]
            exact hClose (.inl rfl) (p + 1 + text.length) v
          · simpa [HostSpelling.opening, HostSpelling.text,
              UrlText.marked] using hFills
      | some zone =>
          rcases readAt_zone (p := p + 1 + text.length)
              hFills.filled hNonempty (hSome zone rfl)
              (hZone zone rfl) with ⟨w, hBehind, hLonger⟩
          refine ⟨w, ?_, hFills.trans hLonger⟩
          have hRest := hClose (.inr rfl)
            (p + 1 + text.length + (37 :: zone).length) w
          have hBytes :
              (HostSpelling.address text (some zone) hNonempty
                  hChars hSome hZone).bytes =
                91 :: (text ++ ((37 :: zone) ++ [93])) := by
            simp [HostSpelling.bytes, HostSpelling.opening,
              HostSpelling.text, HostSpelling.closing,
              UrlText.marked]
          rw [hBytes, readAt, hOpen, Option.bind_some,
            Scanner.readAt_append, hRead, Option.bind_some,
            Scanner.readAt_append, hBehind]
          exact hRest

namespace Authority

variable (authority : Authority)

/- Where the host stands in the server part. -/
def hostOffset : Nat :=
  authority.userinfoText.length +
    authority.host.opening.length

/- Where the port stands in the server part. -/
def portOffset : Nat :=
  authority.userinfoText.length +
    authority.host.bytes.length + 1

/- The fields that `http_parse_host` sets. -/
def fields (off : Nat) : UrlField → Option FieldData
  | .userinfo => fieldAt off (authority.userinfo.getD [])
  | .host =>
      fieldAt (off + authority.hostOffset)
        authority.host.text
  | .port =>
      fieldAt (off + authority.portOffset)
        (authority.port.getD [])
  | _ => none

/- The scan of an authority ends well and fills its fields. -/
theorem loop_bytes
    {u : HttpParserUrl}
    (off : Nat)
    (hHost : HostScan.AwaitsHost u)
    (hUserinfo : u.fieldData .userinfo = none)
    (hPort : u.fieldData .port = none) :
    ∃ last,
      (⟨authority.startState, u⟩ : HostScan).loop off
          authority.bytes = some last ∧
        last.s.accepting = true ∧
          ∀ uf, uf.ofHost = true →
            last.u.fieldData uf = authority.fields off uf := by
  have hFirst :
      ∃ v,
        readAt HostScan.char ⟨authority.startState, u⟩ off
            authority.userinfoText = some ⟨.hostStart, v⟩ ∧
          Fills u .userinfo off
            (authority.userinfo.getD []) v := by
    have hChars := authority.userinfo_chars
    unfold startState userinfoText
    cases hText : authority.userinfo with
    | none => exact ⟨u, rfl, .refl hUserinfo⟩
    | some text =>
        rw [hText] at hChars
        exact HostScan.readAt_userinfo hUserinfo
          (hChars text rfl)
  rcases hFirst with ⟨v, hReadFirst, hFillsFirst⟩
  have hAwaits : HostScan.AwaitsHost v := by
    unfold HostScan.AwaitsHost
    rw [hFillsFirst.others .host (by decide)]
    exact hHost
  rcases HostScan.readAt_host authority.host hAwaits
      (off + authority.userinfoText.length) with
    ⟨w, hReadHost, hFillsHost⟩
  have hEnd :
      authority.host.endState = .host ∨
        authority.host.endState = .hostV6End := by
    cases authority.host with
    | name => exact .inl rfl
    | address => exact .inr rfl
  have hNoPort : w.fieldData .port = none := by
    rw [hFillsHost.others .port (by decide),
      hFillsFirst.others .port (by decide)]
    exact hPort
  rcases HostScan.readAt_port
      (p := off + authority.userinfoText.length +
        authority.host.bytes.length)
      hEnd hNoPort authority.port_digits with
    ⟨last, hReadPort, hAccepting, hFillsPort⟩
  refine ⟨last, ?_, hAccepting, ?_⟩
  · rw [HostScan.loop_eq_readAt, bytes,
      Scanner.readAt_append, hReadFirst, Option.bind_some,
      Scanner.readAt_append, hReadHost, Option.bind_some,
      hReadPort]
  · intro uf hOf
    cases uf with
    | userinfo =>
        rw [hFillsPort.others .userinfo (by decide),
          hFillsHost.others .userinfo (by decide)]
        exact hFillsFirst.filled
    | host =>
        rw [hFillsPort.others .host (by decide),
          hFillsHost.filled, fields, hostOffset,
          Nat.add_assoc]
    | port =>
        rw [hFillsPort.filled, fields, portOffset]
        simp only [Nat.add_assoc]
    | _ => cases hOf

end Authority

end Network
