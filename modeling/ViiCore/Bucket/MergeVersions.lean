import ViiCore.Bucket.MergeRounds

/-!
The protocol version of a merged bucket is that of the newest of its inputs, and the bucket a merge
gives depends on the version of the ledger only in that this must not be older.
-/

namespace ViiCore.Bucket

variable {κ ν : Type} [LinearOrder κ]

def metadata : Bucket κ ν → Nat
  | .METAENTRY ledgerVersion :: _ => ledgerVersion
  | _ => 0

section

omit [LinearOrder κ]

theorem metadata_keyed {entry : BucketEntry κ ν} (keyed : entry.key? ≠ none) (rest : Bucket κ ν) :
    metadata (entry :: rest) = 0 := by
  cases entry with
  | METAENTRY ledgerVersion => exact absurd rfl keyed
  | LIVEENTRY key value => rfl
  | DEADENTRY key => rfl
  | INITENTRY key value => rfl

theorem loadEntry_seen {mMetadata : Nat} {mSeenOtherEntries : Bool} {mIn : Bucket κ ν}
    {iterator : BucketInputIterator κ ν}
    (loaded : BucketInputIterator.loadEntry mMetadata true mSeenOtherEntries mIn = .ok iterator) :
    iterator.mMetadata = mMetadata := by
  cases mIn with
  | nil =>
      cases loaded
      rfl
  | cons entry rest =>
      rcases entry.meta_or_keyed with ⟨ledgerVersion, rfl⟩ | keyed
      · cases loaded
      · rw [loadEntry_keyed_ok keyed loaded]

theorem read_metadata {bucket : Bucket κ ν} {iterator : BucketInputIterator κ ν}
    (opened : BucketInputIterator.read bucket = .ok iterator) :
    iterator.mMetadata = metadata bucket := by
  cases bucket with
  | nil =>
      cases opened
      rfl
  | cons entry rest =>
      rcases entry.meta_or_keyed with ⟨ledgerVersion, rfl⟩ | keyed
      · exact loadEntry_seen opened
      · rw [loadEntry_keyed_ok keyed opened, metadata_keyed keyed]

end

/-- What an output iterator has written begins with its metadata, where its version has any, and
has no other. -/
structure Headed (out : BucketOutputIterator κ ν) : Prop where
  begins : out.mPutMeta = true → out.getBucket.head? = some (.METAENTRY out.mMeta)
  bare : out.mPutMeta = false → ∀ entry ∈ out.getBucket, entry.key? ≠ none
  early : out.mPutMeta = false → out.mMeta < FIRST_PROTOCOL_SUPPORTING_INITENTRY_AND_METAENTRY

omit [LinearOrder κ] in
theorem Headed.metadata_le {out : BucketOutputIterator κ ν} (headed : Headed out) :
    metadata out.getBucket ≤ out.mMeta := by
  cases put : out.mPutMeta with
  | true =>
      obtain ⟨rest, same⟩ := List.head?_eq_some_iff.mp (headed.begins put)
      rw [same, metadata]
  | false =>
      have bare := headed.bare put
      unfold metadata
      split
      · rename_i same
        exact absurd rfl (bare _ (by rw [same]; exact List.mem_cons_self))
      · exact Nat.zero_le _

theorem cmp_meta {entry : BucketEntry κ ν} (keyed : entry.key? ≠ none) (ledgerVersion : Nat) :
    BucketEntryIdCmp (.METAENTRY ledgerVersion) entry = true := by
  unfold BucketEntryIdCmp
  cases found : entry.key? with
  | none => exact absurd found keyed
  | some key => rfl

theorem buffer_headed {out after : BucketOutputIterator κ ν} {entry : BucketEntry κ ν}
    (headed : Headed out) (keyed : entry.key? ≠ none) (buffered : out.buffer entry = .ok after) :
    Headed after ∧ after.mMeta = out.mMeta := by
  unfold BucketOutputIterator.buffer at buffered
  cases waiting : out.mBuf with
  | none =>
      rw [waiting] at buffered
      cases buffered
      refine ⟨⟨?_, ?_, headed.early⟩, rfl⟩
      · intro put
        have begins := headed.begins put
        simp only [BucketOutputIterator.getBucket, waiting, Option.toList_none,
          List.append_nil] at begins
        simp [BucketOutputIterator.getBucket, List.head?_append, begins]
      · intro put other member
        simp only [BucketOutputIterator.getBucket, Option.toList_some, List.mem_append,
          List.mem_singleton] at member
        rcases member with written | last
        · exact headed.bare put other (List.mem_append_left _ written)
        · rw [last]
          exact keyed
  | some previous =>
      rw [waiting] at buffered
      obtain ⟨-, same⟩ := assertThat_bind_ok.mp buffered
      cases same
      refine ⟨⟨?_, ?_, headed.early⟩, rfl⟩
      · intro put
        have begins := headed.begins put
        simp only [BucketOutputIterator.getBucket, waiting, Option.toList_some,
          List.head?_append] at begins
        simp only [BucketOutputIterator.getBucket, Option.toList_some, List.head?_append]
        cases written : out.mOut.head? with
        | some first =>
            rw [written] at begins
            have isMeta : first = .METAENTRY out.mMeta := by simpa using begins
            split
            · simp [List.head?_append, written, isMeta]
            · simp [written, isMeta]
        | none =>
            -- Only the metadata was put, and it comes before the entry.
            rw [written] at begins
            have isMeta : previous = .METAENTRY out.mMeta := by simpa using begins
            rw [isMeta, if_pos (cmp_meta keyed out.mMeta)]
            simp [List.head?_append, written]
      · intro put other member
        simp only [BucketOutputIterator.getBucket, Option.toList_some, List.mem_append,
          List.mem_singleton] at member
        have old : ∀ item ∈ out.mOut ++ [previous], item.key? ≠ none := by
          intro item included
          apply headed.bare put item
          rw [BucketOutputIterator.getBucket, waiting]
          exact included
        rcases member with written | last
        · split at written
          · exact old other written
          · exact old other (List.mem_append_left _ written)
        · rw [last]
          exact keyed

theorem put_headed {out after : BucketOutputIterator κ ν} {entry : BucketEntry κ ν}
    (headed : Headed out) (put : out.put entry = .ok after) :
    Headed after ∧ after.mMeta = out.mMeta := by
  unfold BucketOutputIterator.put at put
  obtain ⟨_, legal, put⟩ := except_bind_ok.mp put
  cases entry with
  | METAENTRY ledgerVersion =>
      cases already : out.mPutMeta with
      | true =>
          simp only [already, if_true] at put
          cases put
      | false =>
          simp only [checkProtocolLegality, headed.early already, if_true] at legal
          cases legal
  | LIVEENTRY key value => exact buffer_headed headed (by simp [BucketEntry.key?]) put
  | DEADENTRY key =>
      dsimp only at put
      split at put
      · cases put
        exact ⟨headed, rfl⟩
      · exact buffer_headed headed (by simp [BucketEntry.key?]) put
  | INITENTRY key value => exact buffer_headed headed (by simp [BucketEntry.key?]) put

theorem create_headed {keepDeadEntries : Bool} {protocolVersion : Nat}
    {out : BucketOutputIterator κ ν}
    (created : BucketOutputIterator.create keepDeadEntries protocolVersion = .ok out) :
    Headed out ∧ out.mMeta = protocolVersion := by
  unfold BucketOutputIterator.create at created
  dsimp only at created
  split at created
  · obtain ⟨first, put, same⟩ := except_bind_ok.mp created
    cases same
    unfold BucketOutputIterator.put at put
    obtain ⟨_, -, put⟩ := except_bind_ok.mp put
    cases put
    refine ⟨⟨fun _ => rfl, ?_, ?_⟩, rfl⟩
    · intro impossible
      cases impossible
    · intro impossible
      cases impossible
  · rename_i early
    cases created
    refine ⟨⟨?_, ?_, fun _ => not_le.mp early⟩, rfl⟩
    · intro impossible
      cases impossible
    · intro _ entry absent
      cases absent

theorem putAll_headed {out after : BucketOutputIterator κ ν} {entries : List (BucketEntry κ ν)}
    (headed : Headed out) (put : putAll out entries = .ok after) :
    Headed after ∧ after.mMeta = out.mMeta := by
  induction entries generalizing out with
  | nil =>
      cases put
      exact ⟨headed, rfl⟩
  | cons entry rest ih =>
      obtain ⟨next, first, last⟩ := except_bind_ok.mp put
      obtain ⟨nextHeaded, same⟩ := put_headed headed first
      obtain ⟨afterHeaded, sameAfter⟩ := ih nextHeaded last
      exact ⟨afterHeaded, sameAfter.trans same⟩

theorem fresh_metadata {batch : Batch κ ν} {bucket : Bucket κ ν} (made : fresh batch = .ok bucket) :
    metadata bucket ≤ batch.currLedgerProtocol := by
  unfold fresh at made
  obtain ⟨entries, -, made⟩ := except_bind_ok.mp made
  obtain ⟨out, created, made⟩ := except_bind_ok.mp made
  obtain ⟨last, put, made⟩ := except_bind_ok.mp made
  cases made
  obtain ⟨headed, version⟩ := create_headed created
  obtain ⟨lastHeaded, same⟩ := putAll_headed headed put
  rw [← version, ← same]
  exact lastHeaded.metadata_le

namespace Merging

variable {protocolVersion : Nat} {keepShadowedLifecycleEntries : Bool} {merging after : Merging κ ν}

theorem maybePut_headed {entry : BucketEntry κ ν} (headed : Headed merging.out)
    (put : merging.maybePut keepShadowedLifecycleEntries entry = .ok after) :
    Headed after.out ∧ after.out.mMeta = merging.out.mMeta := by
  unfold maybePut at put
  split at put
  · obtain ⟨out, written, same⟩ := except_bind_ok.mp put
    cases same
    exact put_headed headed written
  · obtain ⟨⟨shadowed, shadowIterators⟩, -, put⟩ := except_bind_ok.mp put
    dsimp only at put
    split at put
    · cases put
      exact ⟨headed, rfl⟩
    · obtain ⟨out, written, same⟩ := except_bind_ok.mp put
      cases same
      exact put_headed headed written

theorem acceptOld_headed {old : BucketEntry κ ν} (headed : Headed merging.out)
    (accepted : merging.acceptOld protocolVersion keepShadowedLifecycleEntries old = .ok after) :
    Headed after.out ∧ after.out.mMeta = merging.out.mMeta := by
  obtain ⟨middle, oi, put, -, -, rfl⟩ := acceptOld_cases accepted
  have kept := maybePut_headed headed put
  exact kept

theorem acceptNew_headed {new : BucketEntry κ ν} (headed : Headed merging.out)
    (accepted : merging.acceptNew protocolVersion keepShadowedLifecycleEntries new = .ok after) :
    Headed after.out ∧ after.out.mMeta = merging.out.mMeta := by
  obtain ⟨middle, ni, put, -, -, rfl⟩ := acceptNew_cases accepted
  have kept := maybePut_headed headed put
  exact kept

theorem mergeCasesWithEqualKeys_headed {old new : BucketEntry κ ν} (headed : Headed merging.out)
    (merged : merging.mergeCasesWithEqualKeys protocolVersion keepShadowedLifecycleEntries old new =
      .ok after) : Headed after.out ∧ after.out.mMeta = merging.out.mMeta := by
  obtain ⟨_, -, merged⟩ := except_bind_ok.mp merged
  obtain ⟨_, -, merged⟩ := except_bind_ok.mp merged
  obtain ⟨combined, -, merged⟩ := except_bind_ok.mp merged
  obtain ⟨middle, put, merged⟩ := except_bind_ok.mp merged
  obtain ⟨oi, -, merged⟩ := except_bind_ok.mp merged
  obtain ⟨ni, -, same⟩ := except_bind_ok.mp merged
  cases same
  cases combined with
  | none =>
      cases put
      exact ⟨headed, rfl⟩
  | some entry =>
      have kept := maybePut_headed headed put
      exact kept

theorem step_headed (headed : Headed merging.out)
    (stepped : merging.step protocolVersion keepShadowedLifecycleEntries = .ok after) :
    Headed after.out ∧ after.out.mMeta = merging.out.mMeta := by
  unfold step at stepped
  split at stepped
  · cases stepped
    exact ⟨headed, rfl⟩
  · exact acceptOld_headed headed stepped
  · exact acceptNew_headed headed stepped
  · split at stepped
    · exact acceptOld_headed headed stepped
    · split at stepped
      · exact acceptNew_headed headed stepped
      · exact mergeCasesWithEqualKeys_headed headed stepped

theorem loop_headed {fuel : Nat} (headed : Headed merging.out)
    (looped : loop protocolVersion keepShadowedLifecycleEntries fuel merging = .ok after) :
    Headed after.out ∧ after.out.mMeta = merging.out.mMeta := by
  induction fuel generalizing merging with
  | zero => cases looped
  | succ fuel ih =>
      unfold loop at looped
      split at looped
      · cases looped
        exact ⟨headed, rfl⟩
      · obtain ⟨next, stepped, rest⟩ := except_bind_ok.mp looped
        obtain ⟨nextHeaded, same⟩ := step_headed headed stepped
        obtain ⟨afterHeaded, sameAfter⟩ := ih nextHeaded rest
        exact ⟨afterHeaded, sameAfter.trans same⟩

end Merging

/-! ### The version of a merge -/

def mergeVersion (oldBucket newBucket : Bucket κ ν) (shadows : List (Bucket κ ν)) : Nat :=
  shadows.foldl (fun version shadow => max (metadata shadow) version)
    (max (metadata oldBucket) (metadata newBucket))

section

omit [LinearOrder κ]

theorem foldl_metadata_le {shadows : List (Bucket κ ν)} {start bound : Nat} (first : start ≤ bound)
    (within : ∀ shadow ∈ shadows, metadata shadow ≤ bound) :
    shadows.foldl (fun version shadow => max (metadata shadow) version) start ≤ bound := by
  induction shadows generalizing start with
  | nil => exact first
  | cons shadow rest ih =>
      apply ih
      · exact max_le (within shadow List.mem_cons_self) first
      · intro other member
        exact within other (List.mem_cons_of_mem shadow member)

theorem mergeVersion_le {oldBucket newBucket : Bucket κ ν} {shadows : List (Bucket κ ν)}
    {bound : Nat} (old : metadata oldBucket ≤ bound) (new : metadata newBucket ≤ bound)
    (within : ∀ shadow ∈ shadows, metadata shadow ≤ bound) :
    mergeVersion oldBucket newBucket shadows ≤ bound :=
  foldl_metadata_le (max_le old new) within

theorem foldl_read {shadows : List (Bucket κ ν)} {iterators : List (BucketInputIterator κ ν)}
    (opened : shadows.mapM BucketInputIterator.read = .ok iterators) (start : Nat) :
    iterators.foldl (fun version shadow => max shadow.mMetadata version) start =
      shadows.foldl (fun version shadow => max (metadata shadow) version) start := by
  induction shadows generalizing iterators start with
  | nil =>
      cases opened
      rfl
  | cons shadow rest ih =>
      rw [List.mapM_cons] at opened
      obtain ⟨iterator, first, opened⟩ := except_bind_ok.mp opened
      obtain ⟨others, remaining, same⟩ := except_bind_ok.mp opened
      cases same
      rw [List.foldl_cons, List.foldl_cons, read_metadata first]
      exact ih remaining _

theorem calculateMergeProtocolVersion_read {oldBucket newBucket : Bucket κ ν}
    {shadows : List (Bucket κ ν)} {oi ni : BucketInputIterator κ ν}
    {shadowIterators : List (BucketInputIterator κ ν)}
    (oldRead : BucketInputIterator.read oldBucket = .ok oi)
    (newRead : BucketInputIterator.read newBucket = .ok ni)
    (shadowsRead : shadows.mapM BucketInputIterator.read = .ok shadowIterators)
    {maxProtocolVersion : Nat}
    (within : mergeVersion oldBucket newBucket shadows ≤ maxProtocolVersion) :
    calculateMergeProtocolVersion maxProtocolVersion oi ni shadowIterators =
      .ok (mergeVersion oldBucket newBucket shadows, mergeVersion oldBucket newBucket shadows ≥
        FIRST_PROTOCOL_SUPPORTING_INITENTRY_AND_METAENTRY) := by
  have version : shadowIterators.foldl (fun version shadow => max shadow.mMetadata version)
      (max oi.mMetadata ni.mMetadata) = mergeVersion oldBucket newBucket shadows := by
    rw [foldl_read shadowsRead, read_metadata oldRead, read_metadata newRead]
    rfl
  unfold calculateMergeProtocolVersion
  rw [version]
  dsimp only
  rw [if_neg (not_lt.mpr within)]
  rfl

end

theorem merge_limit {first second : Nat} {oldBucket newBucket : Bucket κ ν}
    {shadows : List (Bucket κ ν)} (withinFirst : mergeVersion oldBucket newBucket shadows ≤ first)
    (withinSecond : mergeVersion oldBucket newBucket shadows ≤ second) (keepDeadEntries : Bool) :
    merge first oldBucket newBucket shadows keepDeadEntries =
      merge second oldBucket newBucket shadows keepDeadEntries := by
  unfold merge
  cases oldRead : BucketInputIterator.read oldBucket with
  | error fault => rfl
  | ok oi =>
      cases newRead : BucketInputIterator.read newBucket with
      | error fault => rfl
      | ok ni =>
          cases shadowsRead : shadows.mapM BucketInputIterator.read with
          | error fault => rfl
          | ok shadowIterators =>
              have same : calculateMergeProtocolVersion first oi ni shadowIterators =
                  calculateMergeProtocolVersion second oi ni shadowIterators := by
                rw [calculateMergeProtocolVersion_read oldRead newRead shadowsRead withinFirst,
                  calculateMergeProtocolVersion_read oldRead newRead shadowsRead withinSecond]
              change (calculateMergeProtocolVersion first oi ni shadowIterators >>= _) =
                (calculateMergeProtocolVersion second oi ni shadowIterators >>= _)
              rw [same]

theorem merge_metadata {maxProtocolVersion : Nat} {oldBucket newBucket merged : Bucket κ ν}
    {shadows : List (Bucket κ ν)} {keepDeadEntries : Bool}
    (ran : merge maxProtocolVersion oldBucket newBucket shadows keepDeadEntries = .ok merged) :
    metadata merged ≤ maxProtocolVersion := by
  unfold merge at ran
  obtain ⟨oi, -, ran⟩ := except_bind_ok.mp ran
  obtain ⟨ni, -, ran⟩ := except_bind_ok.mp ran
  obtain ⟨shadowIterators, -, ran⟩ := except_bind_ok.mp ran
  obtain ⟨⟨protocolVersion, keepShadowed⟩, calculated, ran⟩ := except_bind_ok.mp ran
  obtain ⟨out, created, ran⟩ := except_bind_ok.mp ran
  obtain ⟨last, looped, same⟩ := except_bind_ok.mp ran
  cases same
  obtain ⟨headed, version⟩ := create_headed created
  have ended := Merging.loop_headed headed looped
  have limited : protocolVersion ≤ maxProtocolVersion := by
    unfold calculateMergeProtocolVersion at calculated
    dsimp only at calculated
    split at calculated
    · cases calculated
    · rename_i within
      cases calculated
      exact not_lt.mp within
  calc metadata last.out.getBucket
      ≤ last.out.mMeta := ended.1.metadata_le
    _ = protocolVersion := by rw [ended.2, version]
    _ ≤ maxProtocolVersion := limited

end ViiCore.Bucket
