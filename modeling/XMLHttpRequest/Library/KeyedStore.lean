import Mathlib.Data.List.AList

/-
  Associative stores into which an entry is put only when its
  key is free.

  Key definitions include:
    * `KeyedStore`
    * `KeyedStore.tryEmplace`
    * `KeyedStore.modify`
-/

------------------------------------------------------------
-- Stores
------------------------------------------------------------

/- A finite map with one value a key. -/
abbrev KeyedStore (κ υ : Type) := AList fun _ : κ => υ

namespace KeyedStore

variable {κ υ : Type}
variable [DecidableEq κ]

/- Insert unless the key is taken. -/
def tryEmplace
    (key : κ)
    (value : υ)
    (store : KeyedStore κ υ) : KeyedStore κ υ :=
  if (store.lookup key).isSome then
    store
  else
    store.insert key value

/- Change the value under a key, if there is one. -/
def modify
    (key : κ)
    (change : υ → υ)
    (store : KeyedStore κ υ) : KeyedStore κ υ :=
  match store.lookup key with
  | none => store
  | some value => store.insert key (change value)

theorem lookup_tryEmplace_self
    (key : κ)
    (value : υ)
    (store : KeyedStore κ υ) :
    (tryEmplace key value store).lookup key =
      some ((store.lookup key).getD value) := by
  cases hLookup : store.lookup key <;>
    simp [tryEmplace, hLookup]

theorem lookup_tryEmplace_ne
    {key other : κ}
    (value : υ)
    (store : KeyedStore κ υ)
    (hNe : other ≠ key) :
    (tryEmplace key value store).lookup other =
      store.lookup other := by
  cases hLookup : store.lookup key <;>
    simp [tryEmplace, hLookup, AList.lookup_insert_ne hNe]

@[simp] theorem lookup_modify_self
    (key : κ)
    (change : υ → υ)
    (store : KeyedStore κ υ) :
    (modify key change store).lookup key =
      (store.lookup key).map change := by
  cases hLookup : store.lookup key <;>
    simp [modify, hLookup]

theorem lookup_modify_ne
    {key other : κ}
    (change : υ → υ)
    (store : KeyedStore κ υ)
    (hNe : other ≠ key) :
    (modify key change store).lookup other =
      store.lookup other := by
  cases hLookup : store.lookup key <;>
    simp [modify, hLookup, AList.lookup_insert_ne hNe]

end KeyedStore
