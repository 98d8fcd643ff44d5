import XMLHttpRequest.Http.Lookup
import XMLHttpRequest.Library.Delimited
import XMLHttpRequest.Request.State
import XMLHttpRequest.Session.SavedFields

/-
  The two readers of the header of a recorded response
  (xmlhttprequest.cpp).

  Key definitions include:
    * `Network.Impl.getAllResponseHeaders`
    * `Network.Impl.getResponseHeader`
    * `Network.headerLines`

  Key theorems include:
    * `Network.headerLines_entries`
    * `Network.Impl.responseHeaders_lines`
-/

------------------------------------------------------------
-- Readers
------------------------------------------------------------

namespace Network

/- One line of a response header. -/
def headerLine (entry : Bytes × HeaderValue) : Bytes :=
  entry.1 ++ ascii ": " ++ entry.2.value ++ [13, 10]

namespace Impl

variable (d : Impl)

def getAllResponseHeaders : Bytes :=
  match d.response with
  | some rp => rp.header_.entries.flatMap headerLine
  | none => []

def getResponseHeader (header : Bytes) : Bytes :=
  match d.response with
  | some rp => rp.header_.find header
  | none => []

end Impl

end Network

------------------------------------------------------------
-- Lines
------------------------------------------------------------

namespace Network

open Delimited

/- The names and values, cut at CRLF and the first `: `. -/
def headerLines (text : Bytes) : List (Bytes × Bytes) :=
  (cutEach 13 10 text).filterMap (cut 58 32)

/- No line break, and no `: ` in the name. -/
structure FieldSyntax (name value : Bytes) : Prop where
  nameCr : 13 ∉ name
  nameLf : 10 ∉ name
  nameMark : NoMark 58 32 name
  valueCr : 13 ∉ value
  valueLf : 10 ∉ value

theorem fieldSyntax_iff (name value : Bytes) :
    FieldSyntax name value ↔
      13 ∉ name ∧ 10 ∉ name ∧ ¬ [58, 32] <:+: name ∧
        13 ∉ value ∧ 10 ∉ value :=
  ⟨fun h => ⟨h.1, h.2, h.3, h.4, h.5⟩,
    fun h => ⟨h.1, h.2.1, h.2.2.1, h.2.2.2.1, h.2.2.2.2⟩⟩

/- The entries of a header come back from its lines. -/
theorem headerLines_entries
    {entries : List (Bytes × HeaderValue)}
    (hSyntax :
      ∀ entry ∈ entries, FieldSyntax entry.1 entry.2.value) :
    headerLines (entries.flatMap headerLine) =
      entries.map fun entry => (entry.1, entry.2.value) := by
  have hLines :
      entries.flatMap headerLine =
        (entries.map fun entry =>
          entry.1 ++ ascii ": " ++ entry.2.value).flatMap
            (· ++ [13, 10]) := by
    rw [List.flatMap_map]
    rfl
  have hPlain :
      ∀ line ∈ entries.map fun entry =>
          entry.1 ++ ascii ": " ++ entry.2.value,
        NoMark 13 10 line := by
    intro line hLine
    rcases List.mem_map.mp hLine with ⟨entry, hEntry, rfl⟩
    have hEntrySyntax := hSyntax entry hEntry
    apply noMark_of_not_mem
    have hMark : 13 ∉ ascii ": " := by decide
    simp only [List.mem_append, not_or]
    exact ⟨⟨hEntrySyntax.nameCr, hMark⟩,
      hEntrySyntax.valueCr⟩
  rw [headerLines, hLines, cutEach_flatMap (by decide) hPlain,
    List.filterMap_append, List.filterMap_map]
  have hLast : [[]].filterMap (cut (58 : UInt8) 32) = [] :=
    rfl
  rw [hLast, List.append_nil, ← List.filterMap_eq_map]
  apply List.filterMap_congr
  intro entry hEntry
  have hText :
      entry.1 ++ ascii ": " ++ entry.2.value =
        entry.1 ++ 58 :: 32 :: entry.2.value := by
    simp [ascii]
  simp only [Function.comp_apply, hText]
  exact cut_append (by decide)
    (hSyntax entry hEntry).nameMark _

end Network

------------------------------------------------------------
-- Recorded Responses
------------------------------------------------------------

namespace Network

open OrderedMultimap

def Field.line (field : Field) : Bytes × Bytes :=
  (field.name, field.value)

/-
  The header of the response is what the fields of one block
  made of an empty one, and no override met a content type.
-/
def RecordsFields
    (rp : Response)
    (fields : List Field) : Prop :=
  ∃ (type : Bytes) (before : Response),
    before.header_ = OrderedMultimap.empty ∧
      rp.header_ = (before.onBlock type fields).header_ ∧
      (type = [] ∨
        ∀ field ∈ fields, field.name ≠ contentTypeName)

theorem RecordsFields.header
    {rp : Response}
    {fields : List Field}
    (hRecords : RecordsFields rp fields) :
    rp.header_ =
      Header.addAll OrderedMultimap.empty
        (fields.map Field.entry) := by
  rcases hRecords with
    ⟨type, before, hEmpty, hHeader, hPlain⟩
  have hSaved :
      fields.flatMap (savedFields type) =
        fields.map Field.entry := by
    rw [List.map_eq_flatMap]
    apply List.flatMap_congr
    intro field hField
    exact savedFields_plain
      (hPlain.imp_right fun hOther => hOther field hField)
  rw [hHeader, Response.onBlock_header, hEmpty, hSaved]

namespace Impl

/-
  The lines of a recorded response are the fields received, in
  the order of the multimap, and a field is looked up where
  its first line is.
-/
theorem responseHeaders_lines
    {d : Impl}
    {rp : Response}
    (hRecorded : d.response = some rp)
    (hSyntax :
      ∀ entry ∈ rp.header_.entries,
        FieldSyntax entry.1 entry.2.value) :
    (∀ fields, RecordsFields rp fields →
      Arranges (headerLines d.getAllResponseHeaders)
        (fields.map Field.line)) ∧
    ∀ name,
      d.getResponseHeader name =
        firstValue name
          (headerLines d.getAllResponseHeaders) := by
  have hLines :
      headerLines d.getAllResponseHeaders =
        rp.header_.entries.map fun entry =>
          (entry.1, entry.2.value) := by
    simp only [getAllResponseHeaders, hRecorded]
    exact headerLines_entries hSyntax
  rw [hLines]
  constructor
  · intro fields hFields
    have hArranged :=
      (arranges_foldl_emplace (fields.map Field.entry)).map
        HeaderValue.value
    rw [hFields.header]
    rw [List.map_map] at hArranged
    exact hArranged
  · intro name
    simp only [getResponseHeader, hRecorded]
    exact rp.header_.find_eq_firstValue name

/- Two fields with one name, and a value that holds a mark. -/
def repeatedBlock : List Field :=
  [ { name := ascii "set-cookie", value := ascii "b: 1" },
    { name := ascii ":status", value := ascii "200" },
    { name := ascii "set-cookie", value := ascii "a" } ]

def repeatedResponse : Response :=
  ({} : Response).onBlock [] repeatedBlock

theorem responseHeaders_lines_repeated :
    Arranges
        (headerLines
          ({ response := some repeatedResponse } :
            Impl).getAllResponseHeaders)
        (repeatedBlock.map Field.line) ∧
      ({ response := some repeatedResponse } :
          Impl).getResponseHeader (ascii "set-cookie") =
        firstValue (ascii "set-cookie")
          (headerLines
            ({ response := some repeatedResponse } :
              Impl).getAllResponseHeaders) := by
  have hLines :=
    responseHeaders_lines
      (d := { response := some repeatedResponse }) rfl
      (by simp only [fieldSyntax_iff]; decide +kernel)
  exact ⟨hLines.1 repeatedBlock
      ⟨[], {}, rfl, rfl, .inl rfl⟩, hLines.2 _⟩

/- A request whose response came under an override. -/
def overriddenRequest : Impl where
  response :=
    (((overridingState (ascii "text/plain")).run
      typedEvents).findStream 1).map (·.rp)

/- The content type that was received is on no line. -/
theorem override_loses_line :
    (∃ rp, overriddenRequest.response = some rp ∧
      ∀ entry ∈ rp.header_.entries,
        FieldSyntax entry.1 entry.2.value) ∧
    ¬ Arranges
      (headerLines overriddenRequest.getAllResponseHeaders)
      (typedBlock.map Field.line) := by
  refine ⟨⟨_, rfl, ?_⟩, ?_⟩
  · simp only [fieldSyntax_iff]
    decide +kernel
  · intro hArranges
    exact absurd hArranges.perm.length_eq (by decide +kernel)

end Impl

end Network
