import ViiCore.Library.SwapPop
import ViiCore.Util.RandomEvictionCache

/-!
The bounded cache of `util/RandomEvictionCache.h` with the pointers of its vector.

The map owns a node for each key, and each node has an address. A pointer is the address of a node,
and one that no node of the map has is dangling. The addresses are those an allocator chose; the
counters are left out.
-/

namespace ViiCore

open ViiCore.SwapPop

/-- What the map owns, `MapValueType`, and where it lies. -/
structure MapNode (A K V : Type) where
  address : A
  first : K
  second : CacheValue V

structure PointerCache (A K V : Type) where
  mMaxSize : Nat
  mGeneration : UInt64
  mValueMap : List (MapNode A K V)
  mValuePtrs : List A

/-- What ends a call early: a read through a pointer whose node is gone, or what `get` throws. A loop
that would never end is `diverged`. -/
inductive CacheFault where
  | danglingPointer
  | rangeError (what : String)
  | diverged
  deriving DecidableEq

namespace PointerCache

variable {A K V : Type} [DecidableEq A] [DecidableEq K]

omit [DecidableEq A] [DecidableEq K] in
def empty (maxSize : Nat) : PointerCache A K V :=
  { mMaxSize := maxSize, mGeneration := 0, mValueMap := [], mValuePtrs := [] }

variable (cache : PointerCache A K V)

/-! ### The map -/

def find (k : K) : Option (MapNode A K V) := cache.mValueMap.find? fun node => node.first = k

def deref (pointer : A) : Except CacheFault (MapNode A K V) :=
  match cache.mValueMap.find? fun node => node.address = pointer with
  | some node => return node
  | none => throw .danglingPointer

def erase (k : K) : List (MapNode A K V) := cache.mValueMap.filter fun node => node.first ≠ k

def update (k : K) (value : CacheValue V) : List (MapNode A K V) :=
  cache.mValueMap.map fun node => if node.first = k then { node with second := value } else node

/-- The node of a slot is erased; the slot is swapped with the last one, which goes. -/
def dropSlot (node : MapNode A K V) (position : Nat) : PointerCache A K V :=
  { cache with
    mValueMap := cache.erase node.first
    mValuePtrs := swapPop cache.mValuePtrs position }

/-! ### The operations -/

def evictOne (draws : Draws) : Except CacheFault (PointerCache A K V) :=
  let sz := cache.mValuePtrs.length
  match cache.mValuePtrs[draws.first % sz]?, cache.mValuePtrs[draws.second % sz]? with
  | some vp1, some vp2 => do
      let node1 ← cache.deref vp1
      let node2 ← cache.deref vp2
      if node1.second.mLastAccess < node2.second.mLastAccess then
        return cache.dropSlot node1 (draws.first % sz)
      else return cache.dropSlot node2 (draws.second % sz)
  | _, _ => return cache

/-- `address` is where the allocator puts the node of a new key. -/
def put (draws : Draws) (address : A) (k : K) (v : V) : Except CacheFault (PointerCache A K V) :=
  let newValue : CacheValue V := ⟨cache.mGeneration + 1, v⟩
  let cache := { cache with mGeneration := cache.mGeneration + 1 }
  match cache.find k with
  | none =>
      let inserted := { cache with
        mValueMap := ⟨address, k, newValue⟩ :: cache.mValueMap
        mValuePtrs := cache.mValuePtrs ++ [address] }
      if inserted.mValuePtrs.length > inserted.mMaxSize then inserted.evictOne draws
      else return inserted
  | some _ => return { cache with mValueMap := cache.update k newValue }

def exists_ (k : K) : Bool := (cache.find k).isSome

def value (k : K) : Option V := (cache.find k).map fun node => node.second.mValue

def size : Nat := cache.mValueMap.length

def clear : PointerCache A K V := { cache with mValueMap := [], mValuePtrs := [] }

def eraseAt (f : V → Bool) (i : Nat) :
    Nat → PointerCache A K V → Except CacheFault (PointerCache A K V)
  | 0, _ => throw .diverged
  | rounds + 1, cache =>
      match cache.mValuePtrs[i]? with
      | none => return cache
      | some vp => do
          let node ← cache.deref vp
          if f node.second.mValue then eraseAt f i rounds (cache.dropSlot node i)
          else return cache

def eraseFrom (f : V → Bool) :
    Nat → Nat → PointerCache A K V → Except CacheFault (PointerCache A K V)
  | 0, _, _ => throw .diverged
  | rounds + 1, i, cache =>
      if i < cache.mValuePtrs.length then do
        let cache ← eraseAt f i (cache.mValuePtrs.length + 1) cache
        eraseFrom f rounds (i + 1) cache
      else return cache

/-- Every round passes a slot, and no slot is added, so the slots there are at the start bound the
rounds. -/
def erase_if (f : V → Bool) : Except CacheFault (PointerCache A K V) :=
  eraseFrom f (cache.mValuePtrs.length + 1) 0 cache

def get (k : K) : Except CacheFault (V × PointerCache A K V) :=
  match cache.find k with
  | some found =>
      let touched := { cache with
        mGeneration := cache.mGeneration + 1
        mValueMap := cache.update k ⟨cache.mGeneration + 1, found.second.mValue⟩ }
      return (found.second.mValue, touched)
  | none => throw (.rangeError "There is no such key in cache")

/-! ### Pointers and nodes -/

/-- The vector holds the address of each node of the map, once. -/
structure Linked (cache : PointerCache A K V) : Prop where
  keys : (cache.mValueMap.map MapNode.first).Nodup
  addresses : (cache.mValueMap.map MapNode.address).Nodup
  pointers : cache.mValuePtrs.Perm (cache.mValueMap.map MapNode.address)

variable {cache} {node : MapNode A K V} {k : K}

omit [DecidableEq A] [DecidableEq K] in
theorem Linked.eq_of_first (linked : Linked cache) {other : MapNode A K V}
    (there : node ∈ cache.mValueMap) (there' : other ∈ cache.mValueMap)
    (same : node.first = other.first) : node = other :=
  List.inj_on_of_nodup_map linked.keys there there' same

omit [DecidableEq A] in
theorem Linked.find_iff (linked : Linked cache) :
    cache.find k = some node ↔ node ∈ cache.mValueMap ∧ node.first = k := by
  unfold find
  constructor
  · intro found
    exact ⟨List.mem_of_find?_eq_some found, by simpa using List.find?_some found⟩
  · intro ⟨there, isKey⟩
    cases found : cache.mValueMap.find? fun node => node.first = k with
    | none =>
        have absent := List.find?_eq_none.mp found node there
        exact absurd (decide_eq_true isKey) absent
    | some other =>
        have isKey' : other.first = k := by simpa using List.find?_some found
        rw [linked.eq_of_first (List.mem_of_find?_eq_some found) there (isKey'.trans isKey.symm)]

omit [DecidableEq A] in
theorem find_eq_none_iff : cache.find k = none ↔ ∀ node ∈ cache.mValueMap, node.first ≠ k := by
  unfold find
  rw [List.find?_eq_none]
  simp only [decide_eq_true_eq]

omit [DecidableEq K] in
theorem Linked.deref (linked : Linked cache) (there : node ∈ cache.mValueMap) :
    cache.deref node.address = .ok node := by
  unfold PointerCache.deref
  cases found : cache.mValueMap.find? fun other => other.address = node.address with
  | none =>
      have absent := List.find?_eq_none.mp found node there
      exact absurd (decide_eq_true rfl) absent
  | some other =>
      have same : other.address = node.address := by simpa using List.find?_some found
      rw [List.inj_on_of_nodup_map linked.addresses (List.mem_of_find?_eq_some found) there same]
      rfl

omit [DecidableEq K] in
theorem Linked.pointer (linked : Linked cache) {pointer : A} (held : pointer ∈ cache.mValuePtrs) :
    ∃ node ∈ cache.mValueMap, node.address = pointer ∧ cache.deref pointer = .ok node := by
  obtain ⟨node, there, rfl⟩ := List.mem_map.mp (linked.pointers.mem_iff.mp held)
  exact ⟨node, there, rfl, linked.deref there⟩

omit [DecidableEq A] [DecidableEq K] in
theorem Linked.length_eq (linked : Linked cache) :
    cache.mValuePtrs.length = cache.mValueMap.length := by
  rw [linked.pointers.length_eq, List.length_map]

section

omit [DecidableEq A]

theorem mem_erase {other : MapNode A K V} :
    other ∈ cache.erase k ↔ other ∈ cache.mValueMap ∧ other.first ≠ k := by
  unfold erase
  rw [List.mem_filter, decide_eq_true_eq]

theorem Linked.perm_erase (linked : Linked cache) (there : node ∈ cache.mValueMap) :
    cache.mValueMap.Perm (node :: cache.erase node.first) := by
  have nodup := List.Nodup.of_map _ linked.keys
  have apart : node ∉ cache.erase node.first := fun member => (mem_erase.mp member).2 rfl
  have nodup' : (node :: cache.erase node.first).Nodup :=
    List.nodup_cons.mpr ⟨apart, nodup.sublist List.filter_sublist⟩
  refine (List.perm_ext_iff_of_nodup nodup nodup').mpr fun other => ?_
  rw [List.mem_cons, mem_erase]
  constructor
  · intro member
    by_cases same : other.first = node.first
    · exact Or.inl (linked.eq_of_first member there same)
    · exact Or.inr ⟨member, same⟩
  · rintro (rfl | ⟨member, -⟩)
    · exact there
    · exact member

theorem Linked.dropSlot (linked : Linked cache) (there : node ∈ cache.mValueMap) {position : Nat}
    (held : cache.mValuePtrs[position]? = some node.address) :
    Linked (cache.dropSlot node position) where
  keys := linked.keys.sublist (List.filter_sublist.map _)
  addresses := linked.addresses.sublist (List.filter_sublist.map _)
  pointers := by
    have nodes := (linked.perm_erase there).map MapNode.address
    exact ((perm_cons_swapPop held).symm.trans (linked.pointers.trans nodes)).cons_inv

end

/-! ### Eviction -/

theorem evictOne_spec (linked : Linked cache) (draws : Draws) :
    (cache.mValuePtrs = [] ∧ cache.evictOne draws = .ok cache) ∨
      ∃ node ∈ cache.mValueMap, ∃ position, cache.mValuePtrs[position]? = some node.address ∧
        cache.evictOne draws = .ok (cache.dropSlot node position) := by
  unfold evictOne
  dsimp only
  by_cases none : cache.mValuePtrs = []
  · refine Or.inl ⟨none, ?_⟩
    rw [none]
    rfl
  · have some : 0 < cache.mValuePtrs.length := List.length_pos_of_ne_nil none
    have drawn (draw : Nat) : ∃ node ∈ cache.mValueMap,
        cache.mValuePtrs[draw % cache.mValuePtrs.length]? = .some node.address ∧
          cache.deref node.address = .ok node := by
      have slot := List.getElem?_eq_getElem (Nat.mod_lt draw some)
      obtain ⟨node, there, same, points⟩ := linked.pointer (List.mem_of_getElem? slot)
      rw [← same] at slot points
      exact ⟨node, there, slot, points⟩
    obtain ⟨node1, there1, slot1, points1⟩ := drawn draws.first
    obtain ⟨node2, there2, slot2, points2⟩ := drawn draws.second
    right
    rw [slot1, slot2]
    dsimp only
    rw [points1, points2]
    by_cases older : node1.second.mLastAccess < node2.second.mLastAccess
    · refine ⟨node1, there1, _, slot1, ?_⟩
      exact if_pos older
    · refine ⟨node2, there2, _, slot2, ?_⟩
      exact if_neg older

omit [DecidableEq A] in
theorem Linked.find_dropSlot (linked : Linked cache) (there : node ∈ cache.mValueMap)
    {position : Nat} (held : cache.mValuePtrs[position]? = some node.address) :
    (cache.dropSlot node position).find k = if k = node.first then none else cache.find k := by
  have linked' := linked.dropSlot there held
  split
  · rename_i same
    rw [find_eq_none_iff, same]
    exact fun other member => (mem_erase.mp member).2
  · rename_i different
    cases found : cache.find k with
    | none =>
        rw [find_eq_none_iff] at found ⊢
        exact fun other member => found other (mem_erase.mp member).1
    | some other =>
        obtain ⟨there, rfl⟩ := linked.find_iff.mp found
        exact linked'.find_iff.mpr ⟨mem_erase.mpr ⟨there, different⟩, rfl⟩

omit [DecidableEq A] in
theorem length_dropSlot (cache : PointerCache A K V) (node : MapNode A K V) (position : Nat) :
    (cache.dropSlot node position).mValuePtrs.length = cache.mValuePtrs.length - 1 :=
  length_swapPop _ _

/-! ### Insertion and update -/

def inserted (cache : PointerCache A K V) (address : A) (k : K) (v : V) : PointerCache A K V :=
  { cache with
    mGeneration := cache.mGeneration + 1
    mValueMap := ⟨address, k, ⟨cache.mGeneration + 1, v⟩⟩ :: cache.mValueMap
    mValuePtrs := cache.mValuePtrs ++ [address] }

/-- The state in which a key that was there has a new value and is the latest used. -/
def touched (cache : PointerCache A K V) (k : K) (v : V) : PointerCache A K V :=
  { cache with
    mGeneration := cache.mGeneration + 1
    mValueMap := cache.update k ⟨cache.mGeneration + 1, v⟩ }

section

omit [DecidableEq A]

theorem Linked.inserted (linked : Linked cache) {address : A}
    (fresh : address ∉ cache.mValueMap.map MapNode.address) (new : cache.find k = none) (v : V) :
    Linked (cache.inserted address k v) where
  keys := by
    refine List.nodup_cons.mpr ⟨?_, linked.keys⟩
    intro member
    obtain ⟨other, there, same⟩ := List.mem_map.mp member
    exact find_eq_none_iff.mp new other there same
  addresses := List.nodup_cons.mpr ⟨fresh, linked.addresses⟩
  pointers := (List.perm_append_singleton address _).trans (linked.pointers.cons address)

theorem find_inserted {address : A} {k' : K} {v : V} :
    (cache.inserted address k v).find k' =
      if k' = k then some ⟨address, k, ⟨cache.mGeneration + 1, v⟩⟩ else cache.find k' := by
  unfold find PointerCache.inserted
  rw [List.find?_cons]
  by_cases same : k' = k
  · rw [if_pos same, same]
    simp only [decide_true]
  · have different : ¬ k = k' := fun back => same back.symm
    rw [if_neg same]
    simp only [different, decide_false]

theorem map_update {β : Type} (read : MapNode A K V → β) (value : CacheValue V)
    (unread : ∀ node : MapNode A K V, read { node with second := value } = read node) :
    (cache.update k value).map read = cache.mValueMap.map read := by
  unfold update
  rw [List.map_map]
  apply List.map_congr_left
  intro node _
  rw [Function.comp_apply]
  split
  · exact unread node
  · rfl

theorem Linked.touched (linked : Linked cache) (k : K) (v : V) : Linked (cache.touched k v) where
  keys := by
    unfold PointerCache.touched
    rw [map_update MapNode.first _ (fun _ => rfl)]
    exact linked.keys
  addresses := by
    unfold PointerCache.touched
    rw [map_update MapNode.address _ (fun _ => rfl)]
    exact linked.addresses
  pointers := by
    unfold PointerCache.touched
    rw [map_update MapNode.address _ (fun _ => rfl)]
    exact linked.pointers

theorem find_touched {k' : K} {v : V} :
    (cache.touched k v).find k' =
      (cache.find k').map fun node =>
        if k' = k then { node with second := ⟨cache.mGeneration + 1, v⟩ } else node := by
  unfold find PointerCache.touched update
  rw [List.find?_map]
  have sameKey : ((fun node : MapNode A K V => decide (node.first = k')) ∘ fun node =>
      if node.first = k then { node with second := ⟨cache.mGeneration + 1, v⟩ } else node) =
      fun node => decide (node.first = k') := by
    funext node
    rw [Function.comp_apply]
    split <;> rfl
  rw [sameKey]
  cases found : cache.mValueMap.find? fun node => node.first = k' with
  | none => rfl
  | some node =>
      have isKey : node.first = k' := by simpa using List.find?_some found
      rw [Option.map_some, Option.map_some, isKey]

end

inductive Put (cache : PointerCache A K V) (address : A) (k : K) (v : V) :
    PointerCache A K V → Prop
  | updates {node : MapNode A K V} (found : cache.find k = some node) :
      Put cache address k v (cache.touched k v)
  | inserts (new : cache.find k = none) (room : cache.mValuePtrs.length < cache.mMaxSize) :
      Put cache address k v (cache.inserted address k v)
  | evicts {node : MapNode A K V} {position : Nat} (new : cache.find k = none)
      (there : node ∈ (cache.inserted address k v).mValueMap)
      (held : (cache.inserted address k v).mValuePtrs[position]? = some node.address) :
      Put cache address k v ((cache.inserted address k v).dropSlot node position)

theorem put_spec (linked : Linked cache) (draws : Draws) {address : A}
    (fresh : address ∉ cache.mValueMap.map MapNode.address) (k : K) (v : V) :
    ∃ after, cache.put draws address k v = .ok after ∧ Put cache address k v after := by
  unfold put
  dsimp only
  have sameMap : ({ cache with mGeneration := cache.mGeneration + 1 } : PointerCache A K V).find k =
      cache.find k := rfl
  rw [sameMap]
  cases found : cache.find k with
  | some node => exact ⟨_, rfl, .updates found⟩
  | none =>
      dsimp only
      have length : (cache.mValuePtrs ++ [address]).length = cache.mValuePtrs.length + 1 := by
        rw [List.length_append]
        rfl
      by_cases room : cache.mValuePtrs.length < cache.mMaxSize
      · rw [if_neg (by omega)]
        exact ⟨_, rfl, .inserts found room⟩
      · rw [if_pos (by omega)]
        have linked' := linked.inserted fresh found v
        rcases evictOne_spec linked' draws with ⟨none, -⟩ | ⟨node, there, position, held, evicts⟩
        · exact absurd none (List.append_ne_nil_of_right_ne_nil _ (List.cons_ne_nil _ _))
        · exact ⟨_, evicts, .evicts found there held⟩

section

omit [DecidableEq A]

theorem Put.linked {address : A} {v : V} {after : PointerCache A K V}
    (step : Put cache address k v after) (linked : Linked cache)
    (fresh : address ∉ cache.mValueMap.map MapNode.address) : Linked after := by
  cases step with
  | updates found => exact linked.touched k v
  | inserts new room => exact linked.inserted fresh new v
  | evicts new there held => exact (linked.inserted fresh new v).dropSlot there held

theorem Put.length_le {address : A} {v : V} {after : PointerCache A K V}
    (step : Put cache address k v after)
    (bounded : cache.mValuePtrs.length ≤ cache.mMaxSize) :
    after.mMaxSize = cache.mMaxSize ∧ after.mValuePtrs.length ≤ cache.mMaxSize := by
  cases step with
  | updates found => exact ⟨rfl, bounded⟩
  | inserts new room =>
      refine ⟨rfl, ?_⟩
      unfold PointerCache.inserted
      rw [List.length_append]
      exact room
  | evicts new there held =>
      refine ⟨rfl, ?_⟩
      rw [length_dropSlot]
      unfold PointerCache.inserted
      rw [List.length_append]
      exact bounded

theorem value_touched {k' : K} {v : V} (found : cache.find k = some node) :
    (cache.touched k v).value k' = if k' = k then some v else cache.value k' := by
  unfold value
  rw [find_touched, Option.map_map]
  by_cases same : k' = k
  · subst same
    rw [found, if_pos rfl]
    simp only [Option.map_some, Function.comp_apply, if_pos]
  · rw [if_neg same]
    simp only [if_neg same]
    rfl

theorem value_inserted (address : A) {k' : K} {v : V} :
    (cache.inserted address k v).value k' = if k' = k then some v else cache.value k' := by
  unfold value
  rw [find_inserted]
  split <;> rfl

theorem Put.value {address : A} {v : V} {after : PointerCache A K V}
    (step : Put cache address k v after) (linked : Linked cache)
    (fresh : address ∉ cache.mValueMap.map MapNode.address) :
    ∃ victim : Option K, ∀ k', after.value k' =
      if victim = some k' then none else if k' = k then some v else cache.value k' := by
  cases step with
  | updates found => exact ⟨none, fun k' => value_touched found⟩
  | inserts new room => exact ⟨none, fun k' => value_inserted address⟩
  | @evicts node position new there held =>
      refine ⟨some node.first, fun k' => ?_⟩
      have linked' := linked.inserted fresh new v
      rw [← value_inserted address]
      unfold PointerCache.value
      rw [linked'.find_dropSlot there held]
      by_cases same : k' = node.first
      · rw [if_pos same, if_pos (congrArg some same.symm)]
        rfl
      · rw [if_neg same, if_neg (fun equal => same (Option.some.inj equal).symm)]

end

/-! ### Removal by a condition on the values -/

/-- Some nodes that satisfy a condition are gone, and none that does not. -/
structure Pruned (f : V → Bool) (before after : PointerCache A K V) : Prop where
  maxSize : after.mMaxSize = before.mMaxSize
  length_le : after.mValuePtrs.length ≤ before.mValuePtrs.length
  subset : ∀ node ∈ after.mValueMap, node ∈ before.mValueMap
  lost : ∀ node ∈ before.mValueMap, node ∈ after.mValueMap ∨ f node.second.mValue = true

omit [DecidableEq A] [DecidableEq K] in
theorem Pruned.refl (f : V → Bool) (cache : PointerCache A K V) : Pruned f cache cache :=
  ⟨rfl, Nat.le_refl _, fun _ member => member, fun _ member => Or.inl member⟩

omit [DecidableEq A] [DecidableEq K] in
theorem Pruned.trans {f : V → Bool} {before middle after : PointerCache A K V}
    (first : Pruned f before middle) (second : Pruned f middle after) : Pruned f before after where
  maxSize := second.maxSize.trans first.maxSize
  length_le := second.length_le.trans first.length_le
  subset node member := first.subset node (second.subset node member)
  lost node member := by
    rcases first.lost node member with kept | holds
    · exact second.lost node kept
    · exact Or.inr holds

omit [DecidableEq A] in
theorem Linked.pruned_dropSlot (linked : Linked cache) (there : node ∈ cache.mValueMap)
    {f : V → Bool} (holds : f node.second.mValue = true) (position : Nat) :
    Pruned f cache (cache.dropSlot node position) where
  maxSize := rfl
  length_le := by
    rw [length_dropSlot]
    exact Nat.sub_le _ _
  subset other member := (mem_erase.mp member).1
  lost other member := by
    by_cases same : other.first = node.first
    · rw [linked.eq_of_first member there same]
      exact Or.inr holds
    · exact Or.inl (mem_erase.mpr ⟨member, same⟩)

def Stays (f : V → Bool) (cache : PointerCache A K V) (slot : Nat) : Prop :=
  ∀ node ∈ cache.mValueMap, cache.mValuePtrs[slot]? = some node.address →
    f node.second.mValue = false

/-- The inner loop changes no slot before its own, and leaves in that one a value that stays. -/
theorem eraseAt_spec (f : V → Bool) (i : Nat) {rounds : Nat} (linked : Linked cache)
    (enough : cache.mValuePtrs.length < rounds) :
    ∃ after, eraseAt f i rounds cache = .ok after ∧ Linked after ∧ Pruned f cache after ∧
      Stays f after i ∧ ∀ j < i, i ≤ cache.mValuePtrs.length →
        after.mValuePtrs[j]? = cache.mValuePtrs[j]? := by
  induction rounds generalizing cache with
  | zero => exact absurd enough (Nat.not_lt_zero _)
  | succ rounds ih =>
      unfold eraseAt
      cases slot : cache.mValuePtrs[i]? with
      | none =>
          refine ⟨cache, rfl, linked, .refl f cache, ?_, fun j _ _ => rfl⟩
          intro node _ held
          rw [slot] at held
          cases held
      | some vp =>
          obtain ⟨node, there, rfl, points⟩ := linked.pointer (List.mem_of_getElem? slot)
          dsimp only
          rw [points]
          have inside : i < cache.mValuePtrs.length := (List.getElem?_eq_some_iff.mp slot).1
          cases holds : f node.second.mValue with
          | false =>
              have keeps : ¬ f node.second.mValue = true := by
                rw [holds]
                exact Bool.false_ne_true
              refine ⟨cache, if_neg keeps, linked, .refl f cache, ?_, fun j _ _ => rfl⟩
              intro other member held
              rw [slot] at held
              rw [← List.inj_on_of_nodup_map linked.addresses there member (Option.some.inj held)]
              exact holds
          | true =>
              have fewer : (cache.dropSlot node i).mValuePtrs.length < rounds := by
                rw [length_dropSlot]
                omega
              obtain ⟨after, runs, linked', pruned, stays, slots⟩ :=
                ih (linked.dropSlot there slot) fewer
              refine ⟨after, (if_pos holds).trans runs, linked',
                (linked.pruned_dropSlot there holds i).trans pruned, stays, ?_⟩
              intro j before _
              rw [slots j before (by rw [length_dropSlot]; omega)]
              exact getElem?_swapPop before inside

theorem eraseFrom_spec (f : V → Bool) {i rounds : Nat} (linked : Linked cache)
    (earlier : ∀ j < i, Stays f cache j) (some : 0 < rounds)
    (enough : cache.mValuePtrs.length < i + rounds) :
    ∃ after, eraseFrom f rounds i cache = .ok after ∧ Linked after ∧ Pruned f cache after ∧
      ∀ slot, Stays f after slot := by
  induction rounds generalizing cache i with
  | zero => exact absurd some (Nat.lt_irrefl 0)
  | succ rounds ih =>
      unfold eraseFrom
      by_cases inside : i < cache.mValuePtrs.length
      · rw [if_pos inside]
        obtain ⟨next, runs, linked', pruned, stays, slots⟩ :=
          eraseAt_spec f i linked (Nat.lt_succ_self cache.mValuePtrs.length)
        have earlier' : ∀ j < i + 1, Stays f next j := by
          intro j before
          by_cases here : j = i
          · rwa [here]
          · intro node member held
            rw [slots j (by omega) (Nat.le_of_lt inside)] at held
            exact earlier j (by omega) node (pruned.subset node member) held
        have shorter := pruned.length_le
        obtain ⟨after, runs', linked'', pruned', stays'⟩ := ih linked' earlier' (by omega) (by omega)
        refine ⟨after, ?_, linked'', pruned.trans pruned', stays'⟩
        rw [runs]
        exact runs'
      · rw [if_neg inside]
        refine ⟨cache, rfl, linked, .refl f cache, ?_⟩
        intro slot node member held
        have bound := (List.getElem?_eq_some_iff.mp held).1
        exact earlier slot (by omega) node member held

theorem erase_if_spec (f : V → Bool) (linked : Linked cache) :
    ∃ after, cache.erase_if f = .ok after ∧ Linked after ∧ Pruned f cache after ∧
      ∀ k, after.find k = (cache.find k).filter fun node => !f node.second.mValue := by
  have enough : cache.mValuePtrs.length < 0 + (cache.mValuePtrs.length + 1) := by omega
  obtain ⟨after, runs, linked', pruned, stays⟩ := eraseFrom_spec f linked
    (fun j before => absurd before (Nat.not_lt_zero j)) (Nat.succ_pos _) enough
  have kept : ∀ node ∈ after.mValueMap, f node.second.mValue = false := by
    intro node member
    have held := linked'.pointers.mem_iff.mpr (List.mem_map_of_mem member)
    obtain ⟨slot, there⟩ := List.mem_iff_getElem?.mp held
    exact stays slot node member there
  refine ⟨after, runs, linked', pruned, fun k => ?_⟩
  cases found : cache.find k with
  | none =>
      rw [find_eq_none_iff] at found
      exact find_eq_none_iff.mpr fun node member => found node (pruned.subset node member)
  | some node =>
      obtain ⟨member, rfl⟩ := linked.find_iff.mp found
      cases holds : f node.second.mValue with
      | false =>
          have keeps : ¬ f node.second.mValue = true := by
            rw [holds]
            exact Bool.false_ne_true
          have remains := (pruned.lost node member).resolve_right keeps
          rw [linked'.find_iff.mpr ⟨remains, rfl⟩]
          simp only [Option.filter_some, holds, Bool.not_false, if_true]
      | true =>
          simp only [Option.filter_some, holds, Bool.not_true, Bool.false_eq_true, if_false]
          refine find_eq_none_iff.mpr fun other there same => ?_
          have equal := linked.eq_of_first (pruned.subset other there) member same
          rw [equal] at there
          rw [kept node there] at holds
          cases holds

end PointerCache

end ViiCore
