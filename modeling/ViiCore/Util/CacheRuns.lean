import ViiCore.Util.CachePointers

/-!
Runs of calls on the bounded cache.

After every run the vector has a pointer to each entry of the map, and what the cache holds is what
was last put.
-/

namespace ViiCore

open ViiCore.SwapPop

namespace PointerCache

variable {A K V : Type} [DecidableEq A] [DecidableEq K]
variable {cache : PointerCache A K V} {node : MapNode A K V} {k : K}

/-! ### Runs -/

inductive CacheCall (A K V : Type) where
  | put (draws : Draws) (address : A) (k : K) (v : V)
  | get (k : K)
  | exists_ (k : K)
  | erase_if (f : V → Bool)
  | clear

/-- The state after a call. A `get` that throws leaves the cache as it was. -/
def perform (cache : PointerCache A K V) : CacheCall A K V → Except CacheFault (PointerCache A K V)
  | .put draws address k v => cache.put draws address k v
  | .get k =>
      match cache.get k with
      | .ok (_, after) => .ok after
      | .error (.rangeError _) => .ok cache
      | .error fault => .error fault
  | .exists_ _ => .ok cache
  | .erase_if f => cache.erase_if f
  | .clear => .ok cache.clear

/-- An allocator gives out no address that is in use. -/
def Allocated (cache : PointerCache A K V) : CacheCall A K V → Prop
  | .put _ address _ _ => address ∉ cache.mValueMap.map MapNode.address
  | _ => True

inductive Reached (maxSize : Nat) : List (CacheCall A K V) → PointerCache A K V → Prop
  | start : Reached maxSize [] (empty maxSize)
  | call {calls : List (CacheCall A K V)} {cache after : PointerCache A K V} {call : CacheCall A K V}
      (reached : Reached maxSize calls cache) (allocated : Allocated cache call)
      (performs : cache.perform call = .ok after) : Reached maxSize (call :: calls) after

omit [DecidableEq A] in
def lastPut (k : K) : List (CacheCall A K V) → Option V
  | [] => none
  | .put _ _ k' v :: earlier => if k = k' then some v else lastPut k earlier
  | _ :: earlier => lastPut k earlier

structure Sound (maxSize : Nat) (calls : List (CacheCall A K V)) (cache : PointerCache A K V) :
    Prop where
  linked : Linked cache
  limit : cache.mMaxSize = maxSize
  bounded : cache.mValuePtrs.length ≤ maxSize
  latest : ∀ k v, cache.value k = some v → lastPut k calls = some v

section

omit [DecidableEq A]

theorem get_of_find (found : cache.find k = some node) :
    cache.get k = .ok (node.second.mValue, cache.touched k node.second.mValue) := by
  unfold get
  rw [found]
  rfl

theorem get_of_absent (absent : cache.find k = none) :
    cache.get k = .error (.rangeError "There is no such key in cache") := by
  unfold get
  rw [absent]
  rfl

theorem value_of_filter {f : V → Bool} {after : PointerCache A K V}
    (found : ∀ k, after.find k = (cache.find k).filter fun node => !f node.second.mValue) (k : K) :
    after.value k = (cache.value k).filter fun v => !f v := by
  unfold PointerCache.value
  rw [found]
  cases cache.find k with
  | none => rfl
  | some node =>
      simp only [Option.filter_some, Option.map_some]
      split <;> rfl

end

/-- Every call of a run comes to its end, through no dangling pointer, and keeps what holds. -/
theorem Sound.perform {maxSize : Nat} {calls : List (CacheCall A K V)}
    (sound : Sound maxSize calls cache) {call : CacheCall A K V} (allocated : Allocated cache call) :
    ∃ after, cache.perform call = .ok after ∧ Sound maxSize (call :: calls) after := by
  cases call with
  | put draws address k v =>
      obtain ⟨after, runs, step⟩ := put_spec sound.linked draws allocated k v
      have limit := sound.limit
      obtain ⟨sameSize, bounded⟩ := step.length_le (limit.symm ▸ sound.bounded)
      obtain ⟨victim, values⟩ := step.value sound.linked allocated
      refine ⟨after, runs, step.linked sound.linked allocated, sameSize.trans limit,
        limit ▸ bounded, ?_⟩
      intro k' v' there
      rw [values] at there
      unfold lastPut
      split at there
      · cases there
      · split at there
        · rename_i same
          rw [if_pos same]
          exact there
        · rename_i different
          rw [if_neg different]
          exact sound.latest k' v' there
  | get k =>
      unfold PointerCache.perform
      dsimp only
      cases found : cache.find k with
      | none =>
          rw [get_of_absent found]
          exact ⟨cache, rfl, sound.linked, sound.limit, sound.bounded, sound.latest⟩
      | some node =>
          rw [get_of_find found]
          refine ⟨_, rfl, sound.linked.touched k _, sound.limit, sound.bounded, ?_⟩
          intro k' v there
          rw [value_touched found] at there
          refine sound.latest k' v ?_
          split at there
          · rename_i same
            rw [same, ← there]
            unfold PointerCache.value
            rw [found]
            rfl
          · exact there
  | exists_ k => exact ⟨cache, rfl, sound.linked, sound.limit, sound.bounded, sound.latest⟩
  | erase_if f =>
      obtain ⟨after, runs, linked, pruned, found⟩ := erase_if_spec f sound.linked
      refine ⟨after, runs, linked, pruned.maxSize.trans sound.limit,
        pruned.length_le.trans sound.bounded, ?_⟩
      intro k v there
      rw [value_of_filter found] at there
      exact sound.latest k v (Option.filter_eq_some_iff.mp there).1
  | clear =>
      refine ⟨_, rfl, ⟨List.nodup_nil, List.nodup_nil, .nil⟩, sound.limit, Nat.zero_le _, ?_⟩
      intro k v there
      cases there

theorem Reached.sound {maxSize : Nat} {calls : List (CacheCall A K V)}
    (reached : Reached maxSize calls cache) : Sound maxSize calls cache := by
  induction reached with
  | start =>
      refine ⟨⟨List.nodup_nil, List.nodup_nil, .nil⟩, rfl, Nat.zero_le _, ?_⟩
      intro k v there
      cases there
  | call reached allocated performs ih =>
      obtain ⟨after, runs, sound⟩ := ih.perform allocated
      rw [performs] at runs
      cases runs
      exact sound

/-- After every run of calls: the vector holds a pointer to each entry of the map, once; there are no
more entries than the limit; what is there is what was last put; the next call comes to its end; a
`put` removes at most one key; and `erase_if` removes the entries that satisfy its condition. -/
theorem reached_wellPointed {maxSize : Nat} {calls : List (CacheCall A K V)}
    (reached : Reached maxSize calls cache) :
    (cache.mValuePtrs.Perm (cache.mValueMap.map MapNode.address) ∧ cache.mValuePtrs.Nodup) ∧
    cache.size ≤ maxSize ∧
    (∀ k, cache.exists_ k = true →
      ∃ v after, cache.get k = .ok (v, after) ∧ lastPut k calls = some v) ∧
    (∀ call, Allocated cache call → ∃ after, cache.perform call = .ok after) ∧
    (∀ draws address k v after, Allocated cache (.put draws address k v) →
      cache.put draws address k v = .ok after → ∃ victim : Option K, ∀ k', after.value k' =
        if victim = some k' then none else if k' = k then some v else cache.value k') ∧
    ∀ f after, cache.erase_if f = .ok after →
      ∀ k, after.value k = (cache.value k).filter fun v => !f v := by
  have sound := reached.sound
  have linked := sound.linked
  refine ⟨⟨linked.pointers, linked.pointers.nodup_iff.mpr linked.addresses⟩, ?_, ?_, ?_, ?_, ?_⟩
  · unfold size
    rw [← linked.length_eq]
    exact sound.bounded
  · intro k there
    obtain ⟨node, found⟩ := Option.isSome_iff_exists.mp there
    refine ⟨_, _, get_of_find found, sound.latest k _ ?_⟩
    unfold value
    rw [found]
    rfl
  · intro call allocated
    obtain ⟨after, performs, -⟩ := sound.perform allocated
    exact ⟨after, performs⟩
  · intro draws address k v after fresh puts
    obtain ⟨after', puts', step⟩ := put_spec linked draws fresh k v
    rw [puts] at puts'
    cases puts'
    exact step.value linked fresh
  · intro f after erases
    obtain ⟨after', erases', -, -, found⟩ := erase_if_spec f linked
    rw [erases] at erases'
    cases erases'
    exact value_of_filter found

/-- Two keys in a cache for one: the second `put` evicts the first key. -/
theorem reached_wellPointed_two :
    ∃ cache : PointerCache Nat Nat Nat,
      Reached 1 [.put ⟨0, 1⟩ 1 8 5, .put ⟨0, 0⟩ 0 7 4] cache ∧ cache.size ≤ 1 ∧
        cache.value 7 = none ∧ cache.value 8 = some 5 := by
  have first : Reached 1 [.put ⟨0, 0⟩ 0 7 4] (⟨1, 1, [⟨0, 7, 1, 4⟩], [0]⟩ : PointerCache Nat Nat Nat) :=
    .call .start List.not_mem_nil rfl
  have second : Reached 1 [.put ⟨0, 1⟩ 1 8 5, .put ⟨0, 0⟩ 0 7 4]
      (⟨1, 2, [⟨1, 8, 2, 5⟩], [1]⟩ : PointerCache Nat Nat Nat) :=
    .call first (by simp [Allocated]) rfl
  exact ⟨_, second, (reached_wellPointed second).2.1, rfl, rfl⟩

end PointerCache

end ViiCore
