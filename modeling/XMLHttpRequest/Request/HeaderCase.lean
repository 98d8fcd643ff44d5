import XMLHttpRequest.Request.ResponseHeaders
import XMLHttpRequest.Request.SentHeaders

/-
  The letter case of the name in a lookup of a response header
  (xmlhttprequest.cpp).

  Key definitions include:
    * `Network.HasValue`
    * `Network.FirstSpelled`
    * `Network.Impl.IgnoresCase`

  Key theorems include:
    * `Network.Header.find_eq_iff`
    * `Network.Impl.ignoresCase_iff`
-/

------------------------------------------------------------
-- Names Without Case
------------------------------------------------------------

namespace Network

/- Some field of the name, in any case, has a value. -/
def HasValue (rp : Response) (name : Bytes) : Prop :=
  ∃ entry ∈ rp.header_.entries,
    downcase entry.1 = downcase name ∧ entry.2.value ≠ []

/- The first field spelled exactly so has this value. -/
def FirstSpelled (rp : Response) (name value : Bytes) : Prop :=
  (rp.header_.valuesOf name).head?.map HeaderValue.value =
    some value

namespace Impl

/-
  Two spellings of a name look up one value, and a value at
  all where a field of the name has one.
-/
structure IgnoresCase
    (d : Impl)
    (rp : Response)
    (first second : Bytes) : Prop where
  same :
    d.getResponseHeader first = d.getResponseHeader second
  found : HasValue rp first → d.getResponseHeader first ≠ []

end Impl

/- A value that is found is that of the first such field. -/
theorem Header.find_eq_iff
    (rp : Response)
    (name : Bytes)
    {value : Bytes}
    (hSome : value ≠ []) :
    rp.header_.find name = value ↔
      FirstSpelled rp name value := by
  rw [Header.find_eq_headD, FirstSpelled,
    List.headD_eq_head?_getD, List.head?_map]
  cases (rp.header_.valuesOf name).head? with
  | none => simp [Ne.symm hSome]
  | some field => simp

/- The first field that is spelled so is a field. -/
theorem FirstSpelled.entry
    {rp : Response}
    {name value : Bytes}
    (hFirst : FirstSpelled rp name value) :
    ∃ entry ∈ rp.header_.entries,
      entry.1 = name ∧ entry.2.value = value := by
  rcases Option.map_eq_some_iff.mp hFirst with
    ⟨field, hHead, hValue⟩
  rcases List.mem_map.mp (List.mem_of_mem_head? hHead) with
    ⟨entry, hEntry, rfl⟩
  rcases List.mem_filter.mp hEntry with ⟨hMem, hName⟩
  exact ⟨entry, hMem, by simpa using hName, hValue⟩

theorem FirstSpelled.hasValue
    {rp : Response}
    {name value : Bytes}
    (hFirst : FirstSpelled rp name value)
    (hSome : value ≠ []) :
    HasValue rp name := by
  rcases hFirst.entry with ⟨entry, hMem, rfl, rfl⟩
  exact ⟨entry, hMem, rfl, hSome⟩

end Network

------------------------------------------------------------
-- Lookups
------------------------------------------------------------

namespace Network

namespace Impl

variable {d : Impl}
variable {rp : Response}
variable {first second : Bytes}

theorem getResponseHeader_recorded
    (hRecorded : d.response = some rp)
    (name : Bytes) :
    d.getResponseHeader name = rp.header_.find name := by
  unfold getResponseHeader
  rw [hRecorded]

/- Where no field of the name has a value none is found. -/
theorem getResponseHeader_of_not_hasValue
    (hRecorded : d.response = some rp)
    (hNone : ¬ HasValue rp first) :
    d.getResponseHeader first = [] := by
  by_contra hSome
  have hFirst :=
    (Header.find_eq_iff rp first hSome).mp
      (getResponseHeader_recorded hRecorded first).symm
  exact hNone (hFirst.hasValue hSome)

/-
  The case of a name is ignored where no field of the name has
  a value, and where the spellings have a field of their own
  each, with the same one.
-/
theorem ignoresCase_iff_firstSpelled
    (hRecorded : d.response = some rp)
    (hCase : downcase first = downcase second) :
    d.IgnoresCase rp first second ↔
      ¬ HasValue rp first ∨
        ∃ value, value ≠ [] ∧
          FirstSpelled rp first value ∧
          FirstSpelled rp second value := by
  constructor
  · intro hIgnores
    by_cases hHas : HasValue rp first
    · have hSome := hIgnores.found hHas
      have hSame := hIgnores.same
      rw [getResponseHeader_recorded hRecorded] at hSome
      rw [getResponseHeader_recorded hRecorded,
        getResponseHeader_recorded hRecorded] at hSame
      exact .inr ⟨rp.header_.find first, hSome,
        (Header.find_eq_iff rp first hSome).mp rfl,
        (Header.find_eq_iff rp second hSome).mp hSame.symm⟩
    · exact .inl hHas
  · rintro (hNone | ⟨value, hSome, hFirst, hSecond⟩)
    · have hOther : ¬ HasValue rp second := by
        unfold HasValue
        rw [← hCase]
        exact hNone
      refine ⟨?_, fun hHas => absurd hHas hNone⟩
      rw [getResponseHeader_of_not_hasValue hRecorded hNone,
        getResponseHeader_of_not_hasValue hRecorded hOther]
    · have hFound : d.getResponseHeader first = value :=
        (getResponseHeader_recorded hRecorded first).trans
          ((Header.find_eq_iff rp first hSome).mpr hFirst)
      refine ⟨?_, fun _ => by rwa [hFound]⟩
      rw [hFound, getResponseHeader_recorded hRecorded]
      exact
        ((Header.find_eq_iff rp second hSome).mpr hSecond).symm

/- Of names in lower case one is spelled so only as itself. -/
theorem firstSpelled_both_iff
    (hLower :
      ∀ entry ∈ rp.header_.entries,
        downcase entry.1 = entry.1)
    (hCase : downcase first = downcase second)
    (value : Bytes) :
    FirstSpelled rp first value ∧
        FirstSpelled rp second value ↔
      (downcase first = first ∧ downcase second = second) ∧
        FirstSpelled rp first value := by
  constructor
  · rintro ⟨hFirst, hSecond⟩
    rcases hFirst.entry with ⟨entry, hMem, rfl, -⟩
    rcases hSecond.entry with ⟨other, hOther, rfl, -⟩
    exact ⟨⟨hLower entry hMem, hLower other hOther⟩,
      hFirst⟩
  · rintro ⟨⟨hSelf, hSecond⟩, hFirst⟩
    rw [hSelf, hSecond] at hCase
    subst hCase
    exact ⟨hFirst, hFirst⟩

end Impl

end Network

------------------------------------------------------------
-- Which Lookups Ignore Case
------------------------------------------------------------

namespace Network

namespace Impl

/-
  The lookup compares names as they are spelled.  Of a
  response with names in lower case, as they are delivered,
  only lower case finds a value.
-/
theorem ignoresCase_iff
    {d : Impl}
    {rp : Response}
    {first second : Bytes}
    (hRecorded : d.response = some rp)
    (hCase : downcase first = downcase second) :
    (d.IgnoresCase rp first second ↔
      ¬ HasValue rp first ∨
        ∃ value, value ≠ [] ∧
          FirstSpelled rp first value ∧
          FirstSpelled rp second value) ∧
    ((∀ entry ∈ rp.header_.entries,
        downcase entry.1 = entry.1) →
      (d.IgnoresCase rp first second ↔
        ¬ HasValue rp first ∨
          (downcase first = first ∧
            downcase second = second) ∧
          ∃ value, value ≠ [] ∧
            FirstSpelled rp first value)) := by
  have hSpelled := ignoresCase_iff_firstSpelled hRecorded hCase
  refine ⟨hSpelled, ?_⟩
  intro hLower
  rw [hSpelled]
  simp only [firstSpelled_both_iff hLower hCase]
  constructor
  · rintro (hNone | ⟨value, hSome, hBoth, hFirst⟩)
    · exact .inl hNone
    · exact .inr ⟨hBoth, value, hSome, hFirst⟩
  · rintro (hNone | ⟨hBoth, value, hSome, hFirst⟩)
    · exact .inl hNone
    · exact .inr ⟨value, hSome, hBoth, hFirst⟩

/- A request whose response came with a content type. -/
def typedRequest : Impl where
  response :=
    (((overridingState []).run typedEvents).findStream 1).map
      (·.rp)

/- The name as it was delivered, twice. -/
theorem ignoresCase_iff_delivered :
    ∃ rp, typedRequest.response = some rp ∧
      typedRequest.IgnoresCase rp
        contentTypeName contentTypeName :=
  ⟨_, rfl, (ignoresCase_iff rfl rfl).1.mpr
    (.inr ⟨ascii "text/html", by decide, rfl, rfl⟩)⟩

/- The content type of a response is not its `Content-Type`. -/
theorem not_ignoresCase :
    ¬ ∀ (d : Impl) (rp : Response) (first second : Bytes),
      d.response = some rp →
        downcase first = downcase second →
          d.IgnoresCase rp first second := by
  intro hAll
  have hRecorded : ∃ rp, typedRequest.response = some rp :=
    ⟨_, rfl⟩
  rcases hRecorded with ⟨rp, hRecorded⟩
  have hIgnores :=
    hAll typedRequest rp (ascii "Content-Type")
      contentTypeName hRecorded (by decide)
  exact absurd hIgnores.same (by decide +kernel)

end Impl

end Network
