import ViiCore.Bucket.Merge

/-!
The rounds of a merge: what is put moves neither input, and every round reads on in one of them.
-/

namespace ViiCore.Bucket

variable {κ ν : Type} [LinearOrder κ]

def remaining (iterator : BucketInputIterator κ ν) : Nat :=
  match iterator.mEntry with
  | none => 0
  | some _ => iterator.mIn.length + 1

omit [LinearOrder κ] in
theorem loadEntry_remaining {mMetadata : Nat} {mSeenMetadata mSeenOtherEntries : Bool}
    {mIn : Bucket κ ν} {iterator : BucketInputIterator κ ν}
    (loaded : BucketInputIterator.loadEntry mMetadata mSeenMetadata mSeenOtherEntries mIn =
      .ok iterator) : remaining iterator ≤ mIn.length := by
  induction mIn generalizing mMetadata mSeenMetadata with
  | nil =>
      cases loaded
      exact le_rfl
  | cons entry rest ih =>
      rcases entry.meta_or_keyed with ⟨ledgerVersion, rfl⟩ | keyed
      · unfold BucketInputIterator.loadEntry at loaded
        split at loaded
        · cases loaded
        split at loaded
        · cases loaded
        · exact (ih loaded).trans (Nat.le_succ _)
      · rw [loadEntry_keyed_ok keyed loaded]
        exact le_rfl

omit [LinearOrder κ] in
theorem next_remaining {iterator after : BucketInputIterator κ ν} {entry : BucketEntry κ ν}
    (stands : iterator.mEntry = some entry) (moved : iterator.next = .ok after) :
    remaining after < remaining iterator := by
  have fewer := loadEntry_remaining moved
  simp only [remaining, stands] at fewer ⊢
  omega

namespace Merging

variable {protocolVersion : Nat} {keepShadowedLifecycleEntries : Bool} {merging after : Merging κ ν}

theorem maybePut_inputs {entry : BucketEntry κ ν}
    (put : merging.maybePut keepShadowedLifecycleEntries entry = .ok after) :
    after.oi = merging.oi ∧ after.ni = merging.ni := by
  unfold maybePut at put
  split at put
  · obtain ⟨out, -, same⟩ := except_bind_ok.mp put
    cases same
    exact ⟨rfl, rfl⟩
  · obtain ⟨⟨shadowed, shadowIterators⟩, -, put⟩ := except_bind_ok.mp put
    dsimp only at put
    split at put
    · cases put
      exact ⟨rfl, rfl⟩
    · obtain ⟨out, -, same⟩ := except_bind_ok.mp put
      cases same
      exact ⟨rfl, rfl⟩

theorem putCombined_inputs {combined : Option (BucketEntry κ ν)}
    (put : merging.putCombined keepShadowedLifecycleEntries combined = .ok after) :
    after.oi = merging.oi ∧ after.ni = merging.ni := by
  cases combined with
  | none =>
      cases put
      exact ⟨rfl, rfl⟩
  | some entry => exact maybePut_inputs put

theorem acceptOld_cases {old : BucketEntry κ ν}
    (accepted : merging.acceptOld protocolVersion keepShadowedLifecycleEntries old = .ok after) :
    ∃ middle oi, merging.maybePut keepShadowedLifecycleEntries old = .ok middle ∧
      merging.oi.next = .ok oi ∧ middle.ni = merging.ni ∧ after = { middle with oi } := by
  obtain ⟨_, -, accepted⟩ := except_bind_ok.mp accepted
  obtain ⟨middle, put, accepted⟩ := except_bind_ok.mp accepted
  obtain ⟨oi, moved, same⟩ := except_bind_ok.mp accepted
  cases same
  obtain ⟨sameOld, sameNew⟩ := maybePut_inputs put
  rw [sameOld] at moved
  exact ⟨middle, oi, put, moved, sameNew, rfl⟩

theorem acceptNew_cases {new : BucketEntry κ ν}
    (accepted : merging.acceptNew protocolVersion keepShadowedLifecycleEntries new = .ok after) :
    ∃ middle ni, merging.maybePut keepShadowedLifecycleEntries new = .ok middle ∧
      merging.ni.next = .ok ni ∧ middle.oi = merging.oi ∧ after = { middle with ni } := by
  obtain ⟨_, -, accepted⟩ := except_bind_ok.mp accepted
  obtain ⟨middle, put, accepted⟩ := except_bind_ok.mp accepted
  obtain ⟨ni, moved, same⟩ := except_bind_ok.mp accepted
  cases same
  obtain ⟨sameOld, sameNew⟩ := maybePut_inputs put
  rw [sameNew] at moved
  exact ⟨middle, ni, put, moved, sameOld, rfl⟩

end Merging

end ViiCore.Bucket
