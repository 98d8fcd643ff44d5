import XMLHttpRequest.Base.SessionUtil

/-
  The choice of a protocol from a peer's list (utilities.h)
  and its agreement with the check of the chosen one.

  Key definitions include:
    * `Network.selectProto`
    * `Network.selectH2`
    * `Network.ProtocolName`
    * `Network.offer`

  Key theorems include:
    * `Network.selectProto_sound`
    * `Network.selectProto_offer`
    * `Network.selectH2_accepted`
-/

------------------------------------------------------------
-- Selection
------------------------------------------------------------

namespace Network

/- What `*out`, as an offset in the list, and `*outlen` hold. -/
structure Selection where
  out : Nat
  outlen : UInt8
  deriving DecidableEq, Repr

/- The text that a selection stands for. -/
def Selection.name
    (selection : Selection)
    (input : Bytes) : Bytes :=
  (input.drop selection.out).take selection.outlen.toNat

/- `NGHTTP2_H2_ALPN` and the names of the two drafts -/
def nghttp2H2Alpn : Bytes := 2 :: ascii "h2"
def nghttp2H216Alpn : Bytes := 5 :: ascii "h2-16"
def nghttp2H214Alpn : Bytes := 5 :: ascii "h2-14"

/- The scan of `selectProto` from the offset `p` on. -/
def selectProtoLoop
    (input key : Bytes)
    (p : Nat) : Option Selection :=
  if p + key.length ≤ input.length then
    if (input.drop p).take key.length = key then
      some { out := p + 1, outlen := input.getD p 0 }
    else
      selectProtoLoop input key
        (p + ((input.getD p 0).toNat + 1))
  else none
termination_by input.length + 1 - p

/- `selectProto` -/
def selectProto (input key : Bytes) : Option Selection :=
  selectProtoLoop input key 0

/- `selectH2` -/
def selectH2 (input : Bytes) : Option Selection :=
  (selectProto input nghttp2H2Alpn).or
    ((selectProto input nghttp2H216Alpn).or
      (selectProto input nghttp2H214Alpn))

end Network

------------------------------------------------------------
-- Offers
------------------------------------------------------------

namespace Network

/- A name that an entry of a protocol list can hold. -/
structure ProtocolName where
  text : Bytes
  nonempty : text ≠ []
  fits : text.length < 256

/- A name behind its length. -/
def alpnEntry (text : Bytes) : Bytes :=
  UInt8.ofNat text.length :: text

/- A protocol list. -/
def offer (names : List ProtocolName) : Bytes :=
  names.flatMap fun name => alpnEntry name.text

@[simp]
theorem length_alpnEntry (text : Bytes) :
    (alpnEntry text).length = text.length + 1 := rfl

theorem toNat_length_byte
    {text : Bytes}
    (hFits : text.length < 256) :
    (UInt8.ofNat text.length).toNat = text.length := by
  rw [UInt8.toNat_ofNat']
  exact Nat.mod_eq_of_lt hFits

/- An entry begins a list only as a whole. -/
theorem take_alpnEntry_iff
    {key text rest : Bytes}
    (hKey : key.length < 256)
    (hText : text.length < 256) :
    (alpnEntry text ++ rest).take (alpnEntry key).length =
        alpnEntry key ↔
      key = text := by
  constructor
  · intro hTake
    simp only [alpnEntry, List.cons_append,
      List.length_cons, List.take_succ_cons,
      List.cons.injEq] at hTake
    have hLength : text.length = key.length := by
      rw [← toNat_length_byte hText, hTake.1,
        toNat_length_byte hKey]
    rw [← hLength, List.take_left'] at hTake
    · exact hTake.2.symm
    · rfl
  · rintro rfl
    exact List.take_left' rfl

end Network

------------------------------------------------------------
-- One Scan
------------------------------------------------------------

namespace Network

variable {input key : Bytes}

/- What a scan selects stands where its key is met. -/
theorem selectProtoLoop_found
    (p : Nat)
    {selection : Selection}
    (hFound :
      selectProtoLoop input key p = some selection) :
    ∃ q, q + key.length ≤ input.length ∧
      (input.drop q).take key.length = key ∧
      selection = { out := q + 1, outlen := input.getD q 0 } := by
  induction p using selectProtoLoop.induct input key with
  | case1 p hRoom hEqual =>
      rw [selectProtoLoop, if_pos hRoom, if_pos hEqual,
        Option.some.injEq] at hFound
      exact ⟨p, hRoom, hEqual, hFound.symm⟩
  | case2 p hRoom hDiffers ih =>
      rw [selectProtoLoop, if_pos hRoom,
        if_neg hDiffers] at hFound
      exact ih hFound
  | case3 p hRoom =>
      rw [selectProtoLoop, if_neg hRoom] at hFound
      cases hFound

/- A selection is the name of the key, and inside the list. -/
theorem selectProtoLoop_sound
    (hKey : key.length < 256)
    (p : Nat)
    {selection : Selection}
    (hFound :
      selectProtoLoop input (alpnEntry key) p =
        some selection) :
    selection.out + selection.outlen.toNat ≤ input.length ∧
      selection.name input = key := by
  rcases selectProtoLoop_found p hFound with
    ⟨q, hRoom, hEqual, rfl⟩
  have hHere :
      input.drop q =
        alpnEntry key ++
          input.drop (q + (alpnEntry key).length) := by
    calc
      input.drop q =
          (input.drop q).take (alpnEntry key).length ++
            (input.drop q).drop (alpnEntry key).length :=
        (List.take_append_drop _ _).symm
      _ = _ := by rw [hEqual, List.drop_drop]
  have hFirst : input.getD q 0 = UInt8.ofNat key.length := by
    rw [List.getD_eq_getElem?_getD, ← List.head?_drop, hHere]
    rfl
  have hAfter :
      input.drop (q + 1) =
        key ++ input.drop (q + (alpnEntry key).length) := by
    rw [← List.drop_drop, hHere]
    rfl
  rw [hFirst]
  constructor
  · rw [length_alpnEntry] at hRoom
    rw [toNat_length_byte hKey]
    change q + 1 + key.length ≤ input.length
    omega
  · unfold Selection.name
    rw [hAfter, toNat_length_byte hKey]
    exact List.take_left' rfl

theorem selectProto_sound
    (hKey : key.length < 256)
    {selection : Selection}
    (hFound :
      selectProto input (alpnEntry key) = some selection) :
    selection.out + selection.outlen.toNat ≤ input.length ∧
      selection.name input = key :=
  selectProtoLoop_sound hKey 0 hFound

/- No entry is found where the list is too short for it. -/
theorem selectProtoLoop_short
    {p : Nat}
    (hShort : input.length < p + key.length) :
    selectProtoLoop input key p = none := by
  rw [selectProtoLoop, if_neg (by omega)]

/- A scan compares its key with one entry after another. -/
theorem selectProtoLoop_entry
    {p : Nat}
    {text rest : Bytes}
    (hKey : key.length < 256)
    (hText : text.length < 256)
    (hHere : input.drop p = alpnEntry text ++ rest) :
    selectProtoLoop input (alpnEntry key) p =
      if key = text then
        some { out := p + 1, outlen := input.getD p 0 }
      else
        selectProtoLoop input (alpnEntry key)
          (p + (text.length + 1)) := by
  have hLength := congrArg List.length hHere
  simp only [List.length_drop, List.length_append,
    length_alpnEntry] at hLength
  have hFirst :
      (input.getD p 0).toNat = text.length := by
    rw [List.getD_eq_getElem?_getD, ← List.head?_drop,
      hHere]
    exact toNat_length_byte hText
  by_cases hRoom :
      p + (alpnEntry key).length ≤ input.length
  · rw [selectProtoLoop, if_pos hRoom, hHere, hFirst]
    simp only [take_alpnEntry_iff hKey hText]
  · -- too short for the key, so the names differ
    have hOther : key ≠ text := by
      rintro rfl
      rw [length_alpnEntry] at hRoom
      omega
    rw [if_neg hOther,
      selectProtoLoop_short (by omega),
      selectProtoLoop_short (by omega)]

/- A scan passes the entries that are not its key. -/
theorem selectProtoLoop_skip
    (hKey : key.length < 256)
    {before : List Bytes}
    {rest : Bytes}
    (hFit : ∀ text ∈ before, text.length < 256)
    (hOther : key ∉ before)
    (p : Nat)
    (hHere :
      input.drop p = before.flatMap alpnEntry ++ rest) :
    selectProtoLoop input (alpnEntry key) p =
      selectProtoLoop input (alpnEntry key)
        (p + (before.flatMap alpnEntry).length) := by
  induction before generalizing p with
  | nil => rfl
  | cons text before ih =>
      rw [List.forall_mem_cons] at hFit
      rw [List.mem_cons, not_or] at hOther
      rw [List.flatMap_cons, List.append_assoc] at hHere
      have hNext :
          input.drop (p + (text.length + 1)) =
            before.flatMap alpnEntry ++ rest := by
        rw [← List.drop_drop, hHere]
        exact List.drop_left' rfl
      rw [selectProtoLoop_entry hKey hFit.1 hHere,
        if_neg hOther.1, ih hFit.2 hOther.2 _ hNext,
        List.flatMap_cons, List.length_append,
        length_alpnEntry, Nat.add_assoc p]

theorem selectProto_of_not_mem
    (hKey : key.length < 256)
    {entries : List Bytes}
    (hFit : ∀ text ∈ entries, text.length < 256)
    (hOther : key ∉ entries) :
    selectProto (entries.flatMap alpnEntry)
      (alpnEntry key) = none := by
  have hBegin :
      (entries.flatMap alpnEntry).drop 0 =
        entries.flatMap alpnEntry ++ [] := by
    rw [List.drop_zero, List.append_nil]
  unfold selectProto
  rw [selectProtoLoop_skip hKey hFit hOther 0 hBegin,
    Nat.zero_add]
  apply selectProtoLoop_short
  rw [length_alpnEntry]
  omega

/- The first entry that is the key is the one selected. -/
theorem selectProto_of_mem
    (hKey : key.length < 256)
    {before : List Bytes}
    (hFit : ∀ text ∈ before, text.length < 256)
    (hOther : key ∉ before)
    (after : List Bytes) :
    selectProto ((before ++ key :: after).flatMap alpnEntry)
        (alpnEntry key) =
      some
        { out := (before.flatMap alpnEntry).length + 1,
          outlen := UInt8.ofNat key.length } := by
  have hText :
      (before ++ key :: after).flatMap alpnEntry =
        before.flatMap alpnEntry ++
          (alpnEntry key ++ after.flatMap alpnEntry) := by
    rw [List.flatMap_append, List.flatMap_cons]
  have hHere :
      ((before ++ key :: after).flatMap alpnEntry).drop
          (before.flatMap alpnEntry).length =
        alpnEntry key ++ after.flatMap alpnEntry := by
    rw [hText]
    exact List.drop_left' rfl
  unfold selectProto
  rw [selectProtoLoop_skip hKey hFit hOther 0
      ((List.drop_zero).trans hText),
    Nat.zero_add, selectProtoLoop_entry hKey hKey hHere,
    if_pos rfl, List.getD_eq_getElem?_getD, ← List.head?_drop,
    hHere]
  rfl

theorem offer_eq (names : List ProtocolName) :
    offer names =
      (names.map ProtocolName.text).flatMap alpnEntry := by
  rw [offer, List.flatMap_map]

theorem offer_fits (names : List ProtocolName) :
    ∀ text ∈ names.map ProtocolName.text,
      text.length < 256 := by
  intro text hText
  rcases List.mem_map.mp hText with ⟨name, _, rfl⟩
  exact name.fits

theorem selectProto_offer
    (hKey : key.length < 256)
    (names : List ProtocolName) :
    (selectProto (offer names) (alpnEntry key)).map
        (·.name (offer names)) =
      if key ∈ names.map ProtocolName.text then some key
      else none := by
  rw [offer_eq]
  by_cases hListed : key ∈ names.map ProtocolName.text
  · rcases List.eq_append_cons_of_mem hListed with
      ⟨before, after, hNames, hOther⟩
    have hFit : ∀ text ∈ before, text.length < 256 := by
      intro text hText
      apply offer_fits names text
      rw [hNames]
      exact List.mem_append_left _ hText
    have hFound :=
      selectProto_of_mem hKey hFit hOther after
    rw [← hNames] at hFound
    rw [if_pos hListed, hFound, Option.map_some,
      (selectProto_sound hKey hFound).2]
  · rw [if_neg hListed,
      selectProto_of_not_mem hKey (offer_fits names) hListed,
      Option.map_none]

end Network

------------------------------------------------------------
-- Selection and Acceptance
------------------------------------------------------------

namespace Network

/- The first of the accepted names that `listed` holds for. -/
def preferredH2 (listed : Bytes → Prop) [DecidablePred listed] :
    Option Bytes :=
  if listed nghttp2H2 then some nghttp2H2
  else if listed nghttp2H216 then some nghttp2H216
  else if listed nghttp2H214 then some nghttp2H214
  else none

theorem checkH2IsSelected_iff (proto : Bytes) :
    checkH2IsSelected proto = true ↔
      proto = nghttp2H2 ∨ proto = nghttp2H216 ∨
        proto = nghttp2H214 := by
  simp only [checkH2IsSelected, Bool.or_eq_true,
    decide_eq_true_eq, or_assoc, eq_comm (b := proto)]

/- An accepted name is listed where one is preferred. -/
theorem preferredH2_isSome_iff
    (listed : Bytes → Prop)
    [DecidablePred listed] :
    (preferredH2 listed).isSome = true ↔
      ∃ proto, listed proto ∧
        checkH2IsSelected proto = true := by
  simp only [checkH2IsSelected_iff]
  unfold preferredH2
  constructor
  · intro hSome
    split at hSome
    · exact ⟨nghttp2H2, ‹_›, .inl rfl⟩
    · split at hSome
      · exact ⟨nghttp2H216, ‹_›, .inr (.inl rfl)⟩
      · split at hSome
        · exact ⟨nghttp2H214, ‹_›, .inr (.inr rfl)⟩
        · cases hSome
  · rintro ⟨proto, hListed, rfl | rfl | rfl⟩
    · simp [hListed]
    · simp only [hListed, if_true]
      split <;> rfl
    · simp only [hListed, if_true]
      split
      · rfl
      · split <;> rfl

/- Every key of `selectH2` is an entry of an accepted name. -/
theorem selectH2_eq (input : Bytes) :
    selectH2 input =
      (selectProto input (alpnEntry nghttp2H2)).or
        ((selectProto input (alpnEntry nghttp2H216)).or
          (selectProto input (alpnEntry nghttp2H214))) :=
  rfl

theorem selectH2_sound
    {input : Bytes}
    {selection : Selection}
    (hFound : selectH2 input = some selection) :
    checkH2IsSelected (selection.name input) = true := by
  rw [selectH2_eq, Option.or_eq_some_iff,
    Option.or_eq_some_iff] at hFound
  rw [checkH2IsSelected_iff]
  rcases hFound with hFound | ⟨-, hFound | ⟨-, hFound⟩⟩
  · exact .inl (selectProto_sound (by decide) hFound).2
  · exact .inr (.inl (selectProto_sound (by decide) hFound).2)
  · exact .inr (.inr (selectProto_sound (by decide) hFound).2)

/- The accepted names are selected in the order of the keys. -/
theorem selectH2_offer (names : List ProtocolName) :
    (selectH2 (offer names)).map (·.name (offer names)) =
      preferredH2 (· ∈ names.map ProtocolName.text) := by
  rw [selectH2_eq, Option.map_or, Option.map_or,
    selectProto_offer (by decide),
    selectProto_offer (by decide),
    selectProto_offer (by decide)]
  unfold preferredH2
  split
  · rfl
  · split <;> simp

/-
  Whatever is selected is accepted, and from a well-formed
  list the preferred one of the accepted names is.
-/
theorem selectH2_accepted :
    (∀ input selection,
      selectH2 input = some selection →
        checkH2IsSelected (selection.name input) = true) ∧
    ∀ names : List ProtocolName,
      ((selectH2 (offer names)).isSome = true ↔
        ∃ name ∈ names,
          checkH2IsSelected name.text = true) ∧
      (selectH2 (offer names)).map (·.name (offer names)) =
        if nghttp2H2 ∈ names.map ProtocolName.text then
          some nghttp2H2
        else if
            nghttp2H216 ∈
              names.map ProtocolName.text then
          some nghttp2H216
        else if
            nghttp2H214 ∈
              names.map ProtocolName.text then
          some nghttp2H214
        else none := by
  refine ⟨fun _ _ => selectH2_sound, fun names => ⟨?_, ?_⟩⟩
  · have hSelected :=
      preferredH2_isSome_iff
        (· ∈ names.map ProtocolName.text)
    rw [← selectH2_offer, Option.isSome_map] at hSelected
    rw [hSelected]
    simp only [List.mem_map, exists_exists_and_eq_and]
  · exact selectH2_offer names

/- A list that ends with the name that is preferred. -/
def mixedOffer : List ProtocolName :=
  [ ⟨ascii "http/1.1", by decide, by decide⟩,
    ⟨ascii "h2-14", by decide, by decide⟩,
    ⟨ascii "h2", by decide, by decide⟩ ]

theorem selectH2_accepted_mixed :
    checkH2IsSelected
        ((Selection.mk 16 2).name (offer mixedOffer)) =
      true :=
  selectH2_accepted.1 (offer mixedOffer) _ (by decide +kernel)

end Network
