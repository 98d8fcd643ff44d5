import Mathlib.Data.List.Induction
import Mathlib.Data.List.Lex
import Mathlib.Data.List.Pairwise
import Mathlib.Order.Lattice

/-
  Multimaps kept in key order, in which an inserted entry
  goes behind the entries with the same key.

  Key definitions include:
    * `OrderedMultimap`
    * `OrderedMultimap.emplace`
    * `OrderedMultimap.valuesOf`
    * `OrderedMultimap.Arranges`

  Key theorems include:
    * `OrderedMultimap.valuesOf_emplace_self`
    * `OrderedMultimap.valuesOf_emplace_ne`
    * `OrderedMultimap.valuesOf_foldl_emplace`
    * `OrderedMultimap.arranges_foldl_emplace`
-/

------------------------------------------------------------
-- Sorted Insertion
------------------------------------------------------------

/- Entries ordered by key; the order of a key's entries is kept. -/
structure OrderedMultimap
    (κ υ : Type*)
    [LinearOrder κ] where
  entries : List (κ × υ)
  sorted : entries.Pairwise fun left right => left.1 ≤ right.1

namespace OrderedMultimap

variable {κ υ : Type*}
variable [LinearOrder κ]

/- Insert an entry in front of the first greater key. -/
def insertEntry
    (key : κ)
    (value : υ) :
    List (κ × υ) → List (κ × υ)
  | [] => [(key, value)]
  | entry :: entries =>
      if key < entry.1 then
        (key, value) :: entry :: entries
      else
        entry :: insertEntry key value entries

theorem mem_insertEntry_iff
    {key : κ}
    {value : υ}
    {entry : κ × υ}
    {entries : List (κ × υ)} :
    entry ∈ insertEntry key value entries ↔
      entry = (key, value) ∨ entry ∈ entries := by
  induction entries with
  | nil => simp [insertEntry]
  | cons head entries ih =>
      by_cases hLess : key < head.1
      · simp [insertEntry, hLess]
      · simp only [insertEntry, hLess, if_false,
          List.mem_cons, ih]
        tauto

theorem insertEntry_sorted
    {key : κ}
    {value : υ}
    {entries : List (κ × υ)}
    (hSorted :
      entries.Pairwise fun left right =>
        left.1 ≤ right.1) :
    (insertEntry key value entries).Pairwise
      fun left right => left.1 ≤ right.1 := by
  induction entries with
  | nil => simp [insertEntry]
  | cons head entries ih =>
      rcases List.pairwise_cons.mp hSorted with
        ⟨hHead, hTail⟩
      by_cases hLess : key < head.1
      · simp only [insertEntry, hLess, if_true]
        refine List.pairwise_cons.mpr ⟨?_, hSorted⟩
        intro entry hEntry
        rcases List.mem_cons.mp hEntry with rfl | hEntry
        · exact hLess.le
        · exact hLess.le.trans (hHead entry hEntry)
      · simp only [insertEntry, hLess, if_false]
        refine List.pairwise_cons.mpr ⟨?_, ih hTail⟩
        intro entry hEntry
        rcases mem_insertEntry_iff.mp hEntry with
          rfl | hEntry
        · exact not_lt.mp hLess
        · exact hHead entry hEntry

/- The new entry is the last one of its key. -/
theorem filter_insertEntry
    {key : κ}
    {value : υ}
    (name : κ)
    {entries : List (κ × υ)}
    (hSorted :
      entries.Pairwise fun left right =>
        left.1 ≤ right.1) :
    (insertEntry key value entries).filter (·.1 = name) =
      entries.filter (·.1 = name) ++
        if key = name then [(key, value)] else [] := by
  induction entries with
  | nil => by_cases hName : key = name <;>
      simp [insertEntry, hName]
  | cons head entries ih =>
      rcases List.pairwise_cons.mp hSorted with
        ⟨hHead, hTail⟩
      by_cases hLess : key < head.1
      · -- every entry from here on has a greater key
        simp only [insertEntry, hLess, if_true]
        by_cases hName : key = name
        · have hNone :
              (head :: entries).filter (·.1 = name) = [] := by
            apply List.filter_eq_nil_iff.mpr
            intro entry hEntry
            have hGreater : key < entry.1 := by
              rcases List.mem_cons.mp hEntry with
                rfl | hEntry
              · exact hLess
              · exact hLess.trans_le (hHead entry hEntry)
            simpa using (hName ▸ hGreater).ne'
          simp only [List.filter_cons, hName, decide_true,
            if_true] at hNone ⊢
          rw [hNone]
          rfl
        · simp [hName]
      · simp only [insertEntry, hLess, if_false,
          List.filter_cons, ih hTail]
        by_cases hHeadName : head.1 = name <;>
          simp [hHeadName]

end OrderedMultimap

------------------------------------------------------------
-- Multimap Operations
------------------------------------------------------------

namespace OrderedMultimap

variable {κ υ : Type*}
variable [LinearOrder κ]

instance [DecidableEq υ] :
    DecidableEq (OrderedMultimap κ υ) :=
  fun left right =>
    decidable_of_iff (left.entries = right.entries) (by
      cases left
      cases right
      simp)

/- The multimap without entries. -/
def empty : OrderedMultimap κ υ :=
  ⟨[], List.Pairwise.nil⟩

/- Add an entry behind the entries with its key. -/
def emplace
    (map : OrderedMultimap κ υ)
    (key : κ)
    (value : υ) : OrderedMultimap κ υ :=
  ⟨insertEntry key value map.entries,
    insertEntry_sorted map.sorted⟩

/- A key's values, oldest first. -/
def valuesOf
    (map : OrderedMultimap κ υ)
    (name : κ) : List υ :=
  (map.entries.filter (·.1 = name)).map (·.2)

@[simp] theorem valuesOf_empty (name : κ) :
    (empty : OrderedMultimap κ υ).valuesOf name = [] := rfl

@[simp] theorem valuesOf_emplace_self
    (map : OrderedMultimap κ υ)
    (key : κ)
    (value : υ) :
    (map.emplace key value).valuesOf key =
      map.valuesOf key ++ [value] := by
  simp [valuesOf, emplace,
    filter_insertEntry key map.sorted]

theorem valuesOf_emplace_ne
    (map : OrderedMultimap κ υ)
    {key name : κ}
    (value : υ)
    (hName : key ≠ name) :
    (map.emplace key value).valuesOf name =
      map.valuesOf name := by
  simp [valuesOf, emplace,
    filter_insertEntry name map.sorted, hName]

/- Filling a multimap keeps multiplicity and arrival order. -/
theorem valuesOf_foldl_emplace
    (map : OrderedMultimap κ υ)
    (fields : List (κ × υ))
    (name : κ) :
    (fields.foldl
        (fun map field => map.emplace field.1 field.2)
        map).valuesOf name =
      map.valuesOf name ++
        (fields.filter (·.1 = name)).map (·.2) := by
  induction fields generalizing map with
  | nil => simp
  | cons field fields ih =>
      rw [List.foldl_cons, ih]
      by_cases hName : field.1 = name
      · subst hName
        simp
      · rw [valuesOf_emplace_ne map field.2 hName]
        simp [hName]

end OrderedMultimap

------------------------------------------------------------
-- Arrival Order
------------------------------------------------------------

namespace OrderedMultimap

variable {κ υ ν : Type*}
variable [LinearOrder κ]

/-
  The entries are the fields with multiplicity, ordered by key
  and for each key as the fields are.
-/
structure Arranges
    (entries fields : List (κ × υ)) : Prop where
  perm : entries.Perm fields
  sorted :
    entries.Pairwise fun left right => left.1 ≤ right.1
  sameKey :
    ∀ name,
      entries.filter (·.1 = name) =
        fields.filter (·.1 = name)

theorem insertEntry_perm
    (key : κ)
    (value : υ)
    (entries : List (κ × υ)) :
    (insertEntry key value entries).Perm
      ((key, value) :: entries) := by
  induction entries with
  | nil => exact .refl _
  | cons head entries ih =>
      by_cases hLess : key < head.1
      · simp only [insertEntry, hLess, if_true]
        exact .refl _
      · simp only [insertEntry, hLess, if_false]
        exact (ih.cons head).trans (.swap _ _ _)

/- Filling an empty multimap arranges the fields. -/
theorem arranges_foldl_emplace (fields : List (κ × υ)) :
    Arranges
      (fields.foldl
        (fun map field => map.emplace field.1 field.2)
        (empty : OrderedMultimap κ υ)).entries
      fields := by
  induction fields using List.reverseRecOn with
  | nil => exact ⟨.refl _, .nil, fun _ => rfl⟩
  | append_singleton fields field ih =>
      rw [List.foldl_append, List.foldl_cons, List.foldl_nil]
      generalize
        fields.foldl
            (fun map field => map.emplace field.1 field.2)
            (empty : OrderedMultimap κ υ) = map at ih ⊢
      refine ⟨?_, (map.emplace field.1 field.2).sorted, ?_⟩
      · refine (insertEntry_perm field.1 field.2
          map.entries).trans ?_
        exact (ih.perm.cons field).trans
          (List.perm_append_singleton field fields).symm
      · intro name
        rw [emplace, filter_insertEntry name map.sorted,
          ih.sameKey name, List.filter_append]
        congr 1
        by_cases hName : field.1 = name
        · subst hName
          simp
        · simp [hName]

/- The arrangement does not look at the values. -/
theorem Arranges.map
    {entries fields : List (κ × υ)}
    (hArranges : Arranges entries fields)
    (f : υ → ν) :
    Arranges (entries.map fun entry => (entry.1, f entry.2))
      (fields.map fun field => (field.1, f field.2)) := by
  refine ⟨hArranges.perm.map _, ?_, ?_⟩
  · exact List.pairwise_map.mpr hArranges.sorted
  · intro name
    rw [List.filter_map, List.filter_map]
    exact congrArg (List.map _) (hArranges.sameKey name)

end OrderedMultimap
