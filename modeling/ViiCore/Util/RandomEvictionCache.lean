import ViiCore.Library.FiniteMap

/-!
The bounded cache of `util/RandomEvictionCache.h`.

Of two values that are drawn at random the one that was used longer ago is evicted. The draws
are parameters, taken modulo the number of values. The pointers to the values are kept as their
keys. The counters are left out.
-/

namespace ViiCore

open ViiCore.FiniteMap

structure CacheValue (V : Type) where
  mLastAccess : UInt64
  mValue : V

structure RandomEvictionCache (K V : Type) where
  mMaxSize : Nat
  mGeneration : UInt64
  mValueMap : Map K (CacheValue V)
  mValuePtrs : List K

/-- What `rand_uniform` draws in `evictOne`. -/
structure Draws where
  first : Nat
  second : Nat

namespace RandomEvictionCache

variable {K V : Type} [DecidableEq K]

omit [DecidableEq K] in
def empty (maxSize : Nat) : RandomEvictionCache K V :=
  { mMaxSize := maxSize, mGeneration := 0, mValueMap := ∅, mValuePtrs := [] }

variable (cache : RandomEvictionCache K V)

def lastAccess (key : K) : UInt64 := ((cache.mValueMap.lookup key).map CacheValue.mLastAccess).getD 0

def evictOne (draws : Draws) : RandomEvictionCache K V :=
  let sz := cache.mValuePtrs.length
  match cache.mValuePtrs[draws.first % sz]?, cache.mValuePtrs[draws.second % sz]?,
      cache.mValuePtrs.getLast? with
  | some vp1, some vp2, some back =>
      let (victim, position) :=
        if cache.lastAccess vp1 < cache.lastAccess vp2 then (vp1, draws.first % sz)
        else (vp2, draws.second % sz)
      { cache with
        mValueMap := cache.mValueMap.erase victim
        mValuePtrs := (cache.mValuePtrs.set position back).dropLast }
  | _, _, _ => cache

def put (draws : Draws) (k : K) (v : V) : RandomEvictionCache K V :=
  let newValue : CacheValue V := ⟨cache.mGeneration + 1, v⟩
  let written :=
    { cache with
      mGeneration := cache.mGeneration + 1
      mValueMap := cache.mValueMap.insert k newValue }
  if (cache.mValueMap.lookup k).isSome then written
  else
    let inserted := { written with mValuePtrs := cache.mValuePtrs ++ [k] }
    if inserted.mValuePtrs.length > inserted.mMaxSize then inserted.evictOne draws else inserted

def exists_ (k : K) : Bool := (cache.mValueMap.lookup k).isSome

def clear : RandomEvictionCache K V := { cache with mValueMap := ∅, mValuePtrs := [] }

/-- An assignment through the reference that `get` returned. -/
def assign (k : K) (v : V) : RandomEvictionCache K V :=
  match cache.mValueMap.lookup k with
  | some old => { cache with mValueMap := cache.mValueMap.insert k { old with mValue := v } }
  | none => cache

def get (k : K) : Option (V × RandomEvictionCache K V) :=
  match cache.mValueMap.lookup k with
  | some found =>
      let touched :=
        { cache with
          mGeneration := cache.mGeneration + 1
          mValueMap := cache.mValueMap.insert k ⟨cache.mGeneration + 1, found.mValue⟩ }
      some (found.mValue, touched)
  | none => none

/-! ### What a cache holds -/

/-- Whether everything in a cache is as a condition on the key and the value says. -/
def Holds (valid : K → V → Prop) : Prop :=
  ∀ key found, cache.mValueMap.lookup key = some found → valid key found.mValue

variable {cache} {valid : K → V → Prop}

theorem empty_holds (maxSize : Nat) : (empty maxSize : RandomEvictionCache K V).Holds valid := by
  intro key found there
  cases there

theorem clear_holds : cache.clear.Holds valid := by
  intro key found there
  cases there

theorem insert_holds (holds : cache.Holds valid) {k : K} {v : V} (fresh : valid k v) {age : UInt64}
    {key : K} {found : CacheValue V}
    (there : (cache.mValueMap.insert k ⟨age, v⟩).lookup key = some found) :
    valid key found.mValue := by
  by_cases same : key = k
  · subst same
    rw [AList.lookup_insert] at there
    cases there
    exact fresh
  · rw [AList.lookup_insert_ne same] at there
    exact holds key found there

theorem evictOne_holds (holds : cache.Holds valid) (draws : Draws) :
    (cache.evictOne draws).Holds valid := by
  have erased : ∀ victim key found, (cache.mValueMap.erase victim).lookup key = some found →
      valid key found.mValue := by
    intro victim key found there
    by_cases same : key = victim
    · subst same
      rw [AList.lookup_erase] at there
      cases there
    · rw [AList.lookup_erase_ne same] at there
      exact holds key found there
  unfold evictOne
  simp only
  split
  · exact erased _
  · exact holds

theorem put_holds (holds : cache.Holds valid) (draws : Draws) {k : K} {v : V} (fresh : valid k v) :
    (cache.put draws k v).Holds valid := by
  unfold put
  simp only
  split
  · exact fun key found there => insert_holds holds fresh there
  · split
    · apply evictOne_holds
      exact fun key found there => insert_holds holds fresh there
    · exact fun key found there => insert_holds holds fresh there

theorem assign_holds (holds : cache.Holds valid) {k : K} {v : V} (fresh : valid k v) :
    (cache.assign k v).Holds valid := by
  unfold assign
  split
  · exact fun key found there => insert_holds holds fresh there
  · exact holds

theorem get_holds (holds : cache.Holds valid) {k : K} {v : V} {touched : RandomEvictionCache K V}
    (got : cache.get k = some (v, touched)) : valid k v ∧ touched.Holds valid := by
  unfold get at got
  split at got
  · rename_i found there
    cases got
    have fresh := holds k found there
    exact ⟨fresh, fun key other present => insert_holds holds fresh present⟩
  · cases got

end RandomEvictionCache

end ViiCore
