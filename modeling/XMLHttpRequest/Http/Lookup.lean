import XMLHttpRequest.Http.Message

/-
  What the readers of a header and of a request find.

  Key definitions include:
    * `Network.firstValue`
    * `Network.Request.Kept`

  Key theorems include:
    * `Network.Header.find_eq_firstValue`
    * `Network.Header.find_addAll`
    * `Network.Request.Kept.getters`
-/

------------------------------------------------------------
-- First Values
------------------------------------------------------------

namespace Network

/- The value of the first field with a name, else `""`. -/
def firstValue
    (name : Bytes)
    (fields : List (Bytes × Bytes)) : Bytes :=
  ((fields.find? (·.1 = name)).map (·.2)).getD []

theorem firstValue_eq_headD
    (name : Bytes)
    (fields : List (Bytes × Bytes)) :
    firstValue name fields =
      ((fields.filter (·.1 = name)).map (·.2)).headD [] := by
  unfold firstValue
  rw [← List.head?_filter, List.headD_eq_head?_getD,
    List.head?_map]

theorem firstValue_cons
    (name : Bytes)
    (field : Bytes × Bytes)
    (fields : List (Bytes × Bytes)) :
    firstValue name (field :: fields) =
      if field.1 = name then field.2
      else firstValue name fields := by
  by_cases hName : field.1 = name <;>
    simp [firstValue, hName]

namespace Header

/- A name is looked up as the first entry that has it. -/
theorem find_eq_firstValue
    (header : Header)
    (name : Bytes) :
    header.find name =
      firstValue name
        (header.entries.map fun entry =>
          (entry.1, entry.2.value)) := by
  unfold find firstValue
  rw [List.find?_map]
  have hSame :
      (fun line : Bytes × Bytes => decide (line.1 = name)) ∘
          (fun entry : Bytes × HeaderValue =>
            (entry.1, entry.2.value)) =
        fun entry => decide (entry.1 = name) := rfl
  rw [hSame]
  cases header.entries.find? fun entry =>
      decide (entry.1 = name) with
  | none => rfl
  | some entry => rfl

theorem find_eq_headD
    (header : Header)
    (name : Bytes) :
    header.find name =
      ((header.valuesOf name).map (·.value)).headD [] := by
  rw [find_eq_firstValue, firstValue_eq_headD,
    OrderedMultimap.valuesOf, List.filter_map, List.map_map,
    List.map_map]
  -- the two filters decide the same equality of names
  refine congrArg
    (fun entries : List (Bytes × HeaderValue) =>
      (entries.map fun entry => entry.2.value).headD [])
    (List.filter_congr fun entry _ => ?_)
  exact decide_eq_decide.mpr Iff.rfl

/- Of fields put into an empty header the first is found. -/
theorem find_addAll
    (fields : List (Bytes × HeaderValue))
    (name : Bytes) :
    (addAll OrderedMultimap.empty fields).find name =
      firstValue name
        (fields.map fun field =>
          (field.1, field.2.value)) := by
  rw [find_eq_headD, firstValue_eq_headD, addAll,
    OrderedMultimap.valuesOf_foldl_emplace, List.filter_map,
    List.map_map, OrderedMultimap.valuesOf_empty,
    List.nil_append, List.map_map]
  refine congrArg
    (fun fields : List (Bytes × HeaderValue) =>
      (fields.map fun field => field.2.value).headD [])
    (List.filter_congr fun field _ => ?_)
  exact decide_eq_decide.mpr Iff.rfl

/- A field is put behind those that are found. -/
theorem find_emplace_of_ne
    (header : Header)
    {name : Bytes}
    (hFound : header.find name ≠ [])
    (key : Bytes)
    (value : HeaderValue) :
    find (header.emplace key value) name =
      header.find name := by
  rw [find_eq_headD] at hFound
  rw [find_eq_headD, find_eq_headD]
  by_cases hName : key = name
  · subst hName
    rw [OrderedMultimap.valuesOf_emplace_self]
    cases hValues : header.valuesOf key with
    | nil => simp [hValues] at hFound
    | cons first values => rfl
  · rw [OrderedMultimap.valuesOf_emplace_ne _ _ hName]

end Header

end Network

------------------------------------------------------------
-- Requests
------------------------------------------------------------

namespace Network

namespace Request

/- Only the host has been looked up, if anything. -/
structure Kept (rq : Request) : Prop where
  scheme : rq.scheme_ = []
  method : rq.method_ = []
  host :
    rq.host_ = [] ∨
      rq.host_ = rq.header_.find (ascii "host")

variable {rq : Request}

/- The getters look into the header. -/
theorem Kept.getters (hKept : rq.Kept) :
    rq.method.1 = rq.header_.find (ascii ":method") ∧
      rq.scheme.1 = rq.header_.find (ascii ":scheme") ∧
      rq.host.1 = rq.header_.find (ascii "host") := by
  refine ⟨?_, ?_, ?_⟩
  · simp only [Request.method, hKept.method, if_true]
  · simp only [Request.scheme, hKept.scheme, if_true]
  · unfold Request.host
    split
    · rfl
    · rename_i hSome
      exact hKept.host.resolve_left hSome

theorem Kept.addHeader
    (hKept : rq.Kept)
    (name : Bytes)
    (value : HeaderValue) :
    (rq.addHeader name value).Kept := by
  refine ⟨hKept.scheme, hKept.method, ?_⟩
  rcases hKept.host with hNone | hFound
  · exact .inl hNone
  · by_cases hEmpty : rq.host_ = []
    · exact .inl hEmpty
    · refine .inr ?_
      rw [hFound] at hEmpty
      exact hFound.trans
        (rq.header_.find_emplace_of_ne hEmpty name value).symm

/- Looking the host up keeps the header. -/
theorem Kept.lookedUp (hKept : rq.Kept) :
    rq.host.2.Kept ∧ rq.host.2.header_ = rq.header_ := by
  unfold Request.host
  split
  · exact ⟨⟨hKept.scheme, hKept.method, .inr rfl⟩, rfl⟩
  · exact ⟨hKept, rfl⟩

end Request

end Network
