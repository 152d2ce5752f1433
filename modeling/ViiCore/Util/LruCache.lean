import Mathlib.Data.List.Basic

/-!
The least recently used cache of `lib/util/lrucache.hpp`.

The items are kept in one list, the last used first; the map of iterators into it is its lookup.
-/

namespace ViiCore

structure LruCache (K V : Type) where
  maxSize : Nat
  items : List (K × V)

namespace LruCache

variable {K V : Type} [DecidableEq K] (cache : LruCache K V)

omit [DecidableEq K] in
def empty (maxSize : Nat) : LruCache K V := { maxSize, items := [] }

def exists_ (key : K) : Bool := cache.items.any fun item => item.1 = key

def put (key : K) (value : V) : LruCache K V :=
  let items := (key, value) :: cache.items.filter fun item => item.1 ≠ key
  { cache with items := if items.length > cache.maxSize then items.dropLast else items }

def get (key : K) : Option (V × LruCache K V) :=
  match cache.items.find? fun item => item.1 = key with
  | none => none
  | some found =>
      some (found.2, { cache with items := found :: cache.items.filter fun item => item.1 ≠ key })

/-- Whether everything in a cache is as a condition on the key and the value says. -/
def Holds (valid : K → V → Prop) : Prop := ∀ item ∈ cache.items, valid item.1 item.2

variable {cache} {valid : K → V → Prop}

omit [DecidableEq K] in
theorem empty_holds (maxSize : Nat) : (empty maxSize : LruCache K V).Holds valid := by
  intro item member
  cases member

theorem put_holds (holds : cache.Holds valid) {key : K} {value : V} (fresh : valid key value) :
    (cache.put key value).Holds valid := by
  have all : ∀ item ∈ (key, value) :: cache.items.filter (fun item => item.1 ≠ key),
      valid item.1 item.2 := by
    intro item member
    rcases List.mem_cons.mp member with rfl | member
    · exact fresh
    · exact holds item (List.mem_of_mem_filter member)
  intro item member
  unfold put at member
  simp only at member
  split at member
  · exact all item (List.dropLast_subset _ member)
  · exact all item member

theorem get_holds (holds : cache.Holds valid) {key : K} {value : V} {touched : LruCache K V}
    (got : cache.get key = some (value, touched)) : valid key value ∧ touched.Holds valid := by
  unfold get at got
  split at got
  · cases got
  · rename_i found isFound
    cases got
    have same : found.1 = key := by simpa using List.find?_some isFound
    have fresh := holds found (List.mem_of_find?_eq_some isFound)
    refine ⟨same ▸ fresh, ?_⟩
    intro item member
    rcases List.mem_cons.mp member with rfl | member
    · exact fresh
    · exact holds item (List.mem_of_mem_filter member)

theorem get_of_exists {key : K} (there : cache.exists_ key) : cache.get key ≠ none := by
  intro missing
  unfold get at missing
  split at missing
  · rename_i nothing
    obtain ⟨item, member, same⟩ := List.any_eq_true.mp there
    exact List.find?_eq_none.mp nothing item member same
  · cases missing

end LruCache

end ViiCore
