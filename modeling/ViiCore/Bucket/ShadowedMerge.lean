import ViiCore.Bucket.MergeLifecycles

/-!
What shadows hide in a merge.

An entry of a merge is left out only where a shadow has an entry of its key, or where it is dead and
dead entries are not kept.
-/

namespace ViiCore.Bucket

open SortedMerge (Ascending find join)

variable {κ ν : Type} [LinearOrder κ]

/-! ### Searching the shadows -/

def Among (bucket : Bucket κ ν) (iterator : BucketInputIterator κ ν) : Prop :=
  ∀ entry, iterator.mEntry = some entry ∨ entry ∈ iterator.mIn → entry ∈ bucket

omit [LinearOrder κ] in
theorem loadEntry_among {mMetadata : Nat} {mSeenMetadata mSeenOtherEntries : Bool}
    {bucket mIn : Bucket κ ν} {iterator : BucketInputIterator κ ν}
    (within : ∀ entry ∈ mIn, entry ∈ bucket)
    (loaded : BucketInputIterator.loadEntry mMetadata mSeenMetadata mSeenOtherEntries mIn =
      .ok iterator) : Among bucket iterator := by
  induction mIn generalizing mMetadata mSeenMetadata with
  | nil =>
      cases loaded
      rintro entry (impossible | impossible) <;> cases impossible
  | cons first rest ih =>
      obtain ⟨isFirst, others⟩ := List.forall_mem_cons.mp within
      rcases first.meta_or_keyed with ⟨ledgerVersion, rfl⟩ | keyed
      · unfold BucketInputIterator.loadEntry at loaded
        split at loaded
        · cases loaded
        split at loaded
        · cases loaded
        · exact ih others loaded
      · rw [loadEntry_keyed_ok keyed loaded]
        rintro entry (same | member)
        · cases same
          exact isFirst
        · exact others entry member

omit [LinearOrder κ] in
theorem Among.next {bucket : Bucket κ ν} {iterator after : BucketInputIterator κ ν}
    (among : Among bucket iterator) (moved : iterator.next = .ok after) : Among bucket after :=
  loadEntry_among (fun entry member => among entry (.inr member)) moved

theorem skipBefore_among {bucket : Bucket κ ν} {entry : BucketEntry κ ν} {fuel : Nat}
    {shadow after : BucketInputIterator κ ν} (among : Among bucket shadow)
    (skipped : skipBefore entry fuel shadow = .ok after) :
    Among bucket after ∧
      ∀ current, after.mEntry = some current → ¬ BucketEntryIdCmp current entry := by
  induction fuel generalizing shadow with
  | zero => cases skipped
  | succ fuel ih =>
      unfold skipBefore at skipped
      cases stands : shadow.mEntry with
      | none =>
          rw [stands] at skipped
          cases skipped
          refine ⟨among, ?_⟩
          intro current isCurrent
          rw [stands] at isCurrent
          cases isCurrent
      | some current =>
          rw [stands] at skipped
          dsimp only at skipped
          split at skipped
          · obtain ⟨next, moved, skipped⟩ := except_bind_ok.mp skipped
            exact ih (among.next moved) skipped
          · rename_i notBefore
            cases skipped
            refine ⟨among, ?_⟩
            intro other isOther
            rw [stands] at isOther
            cases isOther
            exact notBefore

def Shadowed (shadows : List (Bucket κ ν)) (entry : BucketEntry κ ν) : Prop :=
  ∃ shadow ∈ shadows, ∃ other ∈ shadow, other.rank = entry.rank

theorem scanShadows_among {entry : BucketEntry κ ν} {shadows : List (Bucket κ ν)}
    {iterators after : List (BucketInputIterator κ ν)} {shadowed : Bool}
    (among : List.Forall₂ Among shadows iterators)
    (scanned : scanShadows entry iterators = .ok (shadowed, after)) :
    List.Forall₂ Among shadows after ∧ (shadowed = true → Shadowed shadows entry) := by
  induction among generalizing after shadowed with
  | nil =>
      cases scanned
      exact ⟨.nil, fun impossible => (by cases impossible)⟩
  | @cons bucket iterator shadows iterators first others ih =>
      obtain ⟨moved, skipped, scanned⟩ := except_bind_ok.mp scanned
      obtain ⟨movedAmong, notBefore⟩ := skipBefore_among first skipped
      dsimp only at scanned
      split at scanned
      · rename_i reached
        cases scanned
        refine ⟨.cons movedAmong others, fun _ => ?_⟩
        obtain ⟨current, stands, notAfter⟩ := (Option.any_eq_true _ _).mp reached
        have isBefore := notBefore current stands
        simp only [cmp_iff, decide_eq_true_eq] at notAfter isBefore
        exact ⟨bucket, List.mem_cons_self, current, movedAmong current (.inl stands),
          le_antisymm (not_lt.mp notAfter) (not_lt.mp isBefore)⟩
      · obtain ⟨⟨found, rest⟩, scannedRest, scanned⟩ := except_bind_ok.mp scanned
        cases scanned
        obtain ⟨restAmong, finds⟩ := ih scannedRest
        refine ⟨.cons movedAmong restAmong, ?_⟩
        intro isFound
        obtain ⟨shadow, member, has⟩ := finds isFound
        exact ⟨shadow, List.mem_cons_of_mem _ member, has⟩

/-- Lifecycle entries may be exempt from shadows. -/
def Hidden (shadows : List (Bucket κ ν)) (keepShadowedLifecycleEntries : Bool)
    (entry : BucketEntry κ ν) : Prop :=
  ¬ (keepShadowedLifecycleEntries ∧ entry.isLifecycleEntry) ∧ Shadowed shadows entry

namespace Merging

variable {protocolVersion : Nat} {keepShadowedLifecycleEntries : Bool} {merging after : Merging κ ν}
  {shadows : List (Bucket κ ν)}

/-- What is written of some entries: those that are not hidden, unless they are dead and dropped. -/
structure WroteUnlessHidden (shadows : List (Bucket κ ν)) (keepShadowedLifecycleEntries : Bool)
    (merging : Merging κ ν) (entries written : Bucket κ ν) (after : Merging κ ν) : Prop where
  part : written.Sublist entries
  wrote : Wrote merging.out written after.out
  among : List.Forall₂ Among shadows after.shadowIterators
  unlessHidden : ∀ entry ∈ entries, isWritten merging.out.mKeepDeadEntries entry →
    entry ∈ written ∨ Hidden shadows keepShadowedLifecycleEntries entry

theorem put_unlessHidden {entry : BucketEntry κ ν} (keyed : entry.key? ≠ none)
    (ascending : Ascending BucketEntry.rank (merging.out.getBucket ++ [entry]))
    {shadowIterators : List (BucketInputIterator κ ν)}
    (among : List.Forall₂ Among shadows shadowIterators)
    (put : (do return { merging with out := ← merging.out.put entry, shadowIterators }) =
      Except.ok after) :
    ∃ written, WroteUnlessHidden shadows keepShadowedLifecycleEntries merging [entry] written
      after := by
  obtain ⟨out, written, same⟩ := except_bind_ok.mp put
  cases same
  exact ⟨_, List.filter_sublist, put_wrote keyed ascending written, among,
    fun other member written => .inl (List.mem_filter.mpr ⟨member, written⟩)⟩

theorem maybePut_unlessHidden {entry : BucketEntry κ ν} (keyed : entry.key? ≠ none)
    (ascending : Ascending BucketEntry.rank (merging.out.getBucket ++ [entry]))
    (among : List.Forall₂ Among shadows merging.shadowIterators)
    (put : merging.maybePut keepShadowedLifecycleEntries entry = .ok after) :
    ∃ written, WroteUnlessHidden shadows keepShadowedLifecycleEntries merging [entry] written
      after := by
  unfold maybePut at put
  split at put
  · exact put_unlessHidden keyed ascending among put
  · rename_i notExempt
    obtain ⟨⟨shadowed, shadowIterators⟩, scanned, put⟩ := except_bind_ok.mp put
    obtain ⟨stillAmong, finds⟩ := scanShadows_among among scanned
    dsimp only at put
    split at put
    · rename_i hidden
      cases put
      refine ⟨[], List.nil_sublist _, Wrote.nothing _, stillAmong, ?_⟩
      intro other member written
      rw [List.mem_singleton.mp member]
      exact .inr ⟨notExempt, finds hidden⟩
    · exact put_unlessHidden keyed ascending stillAmong put

theorem round_unlessHidden {olds news oldRest newRest : Bucket κ ν}
    {put : Option (BucketEntry κ ν)}
    (round : Round keepShadowedLifecycleEntries merging after olds news put oldRest newRest)
    (keyed : ∀ entry ∈ put, entry.key? ≠ none)
    (ascending : Ascending BucketEntry.rank (merging.out.getBucket ++ put.toList))
    (among : List.Forall₂ Among shadows merging.shadowIterators) :
    ∃ written, WroteUnlessHidden shadows keepShadowedLifecycleEntries merging put.toList written
      after := by
  obtain ⟨middle, ran, sameOut, sameShadows⟩ := round.wrote
  cases put with
  | none =>
      cases ran
      refine ⟨[], List.Sublist.refl _, ?_, ?_, fun entry absent => (by cases absent)⟩
      · rw [sameOut]
        exact Wrote.nothing _
      · rw [sameShadows]
        exact among
  | some entry =>
      obtain ⟨written, part, wrote, stillAmong, unlessHidden⟩ :=
        maybePut_unlessHidden (keyed entry rfl) ascending among ran
      rw [← sameOut] at wrote
      rw [← sameShadows] at stillAmong
      exact ⟨written, part, wrote, stillAmong, unlessHidden⟩

theorem loop_unlessHidden {fuel : Nat} {olds news : Bucket κ ν}
    (oldStands : Standing merging.oi olds) (newStands : Standing merging.ni news)
    (ascending : Ascending BucketEntry.rank
      (merging.out.getBucket ++ SortedMerge.merge BucketEntry.rank table olds news))
    (among : List.Forall₂ Among shadows merging.shadowIterators)
    (looped : loop protocolVersion keepShadowedLifecycleEntries fuel merging = .ok after) :
    ∃ written, WroteUnlessHidden shadows keepShadowedLifecycleEntries merging
      (SortedMerge.merge BucketEntry.rank table olds news) written after := by
  induction fuel generalizing merging olds news with
  | zero => cases looped
  | succ fuel ih =>
      unfold loop at looped
      simp only [ended_iff oldStands newStands] at looped
      split at looped
      · rename_i ended
        obtain ⟨rfl, rfl⟩ := ended
        cases looped
        exact ⟨[], List.nil_sublist _, Wrote.nothing _, among, fun entry absent => (by
          simp at absent)⟩
      · rename_i more
        obtain ⟨next, stepped, rest⟩ := except_bind_ok.mp looped
        obtain ⟨put, oldRest, newRest, round⟩ := step_round oldStands newStands more stepped
        rw [round.merged] at ascending ⊢
        have keyed : ∀ entry ∈ put, entry.key? ≠ none := by
          intro entry isPut
          apply keyed_merge oldStands.keyed newStands.keyed
          rw [round.merged]
          exact List.mem_append_left _ (Option.mem_toList.mpr isPut)
        rw [← List.append_assoc] at ascending
        obtain ⟨first, firstPart, wroteFirst, stillAmong, firstKept⟩ := round_unlessHidden round
          keyed (ascending.sublist (List.sublist_append_left _ _)) among
        have stillAscending : Ascending BucketEntry.rank (next.out.getBucket ++
            SortedMerge.merge BucketEntry.rank table oldRest newRest) := by
          rw [wroteFirst.bucket]
          exact List.Pairwise.sublist ((firstPart.append_left _).append_right _) ascending
        obtain ⟨later, laterPart, wroteLater, lastAmong, laterKept⟩ :=
          ih round.oldStands.1 round.newStands.1 stillAscending stillAmong rest
        refine ⟨first ++ later, firstPart.append laterPart, wroteFirst.trans wroteLater, lastAmong, ?_⟩
        intro entry member written
        rcases List.mem_append.mp member with isFirst | isLater
        · exact (firstKept entry isFirst written).imp_left (List.mem_append_left _)
        · rw [← wroteFirst.keep] at written
          exact (laterKept entry isLater written).imp_left (List.mem_append_right _)

end Merging

/-! ### The merge of two buckets -/

section Merge

variable {maxProtocolVersion : Nat} {oldBucket newBucket out : Bucket κ ν}
  {shadows : List (Bucket κ ν)} {keepDeadEntries : Bool}

omit [LinearOrder κ] in
theorem mapM_read_among {iterators : List (BucketInputIterator κ ν)}
    (opened : shadows.mapM BucketInputIterator.read = .ok iterators) :
    List.Forall₂ Among shadows iterators := by
  induction shadows generalizing iterators with
  | nil =>
      cases opened
      exact .nil
  | cons shadow rest ih =>
      rw [List.mapM_cons] at opened
      obtain ⟨first, openedFirst, opened⟩ := except_bind_ok.mp opened
      obtain ⟨others, openedRest, opened⟩ := except_bind_ok.mp opened
      cases opened
      exact .cons (loadEntry_among (fun entry member => member) openedFirst) (ih openedRest)

def HasLifecycles (oldBucket newBucket : Bucket κ ν) (shadows : List (Bucket κ ν)) : Bool :=
  mergeVersion oldBucket newBucket shadows ≥ FIRST_PROTOCOL_SUPPORTING_INITENTRY_AND_METAENTRY

theorem merge_unlessHidden (oldSorted : StrictlySorted oldBucket)
    (newSorted : StrictlySorted newBucket)
    (merged : merge maxProtocolVersion oldBucket newBucket shadows keepDeadEntries = .ok out) :
    ∃ written : Bucket κ ν, written.Sublist (mergeEntries oldBucket newBucket) ∧
      out = header (mergeVersion oldBucket newBucket shadows) ++ written ∧
      ∀ entry ∈ mergeEntries oldBucket newBucket, isWritten keepDeadEntries entry →
        entry ∈ written ∨ Hidden shadows (HasLifecycles oldBucket newBucket shadows) entry := by
  obtain ⟨merging, last, fuel, shadowsRead, oldStands, newStands, begins, keeps, ascending, looped,
    rfl⟩ := merge_loops oldSorted newSorted merged
  obtain ⟨written, part, wrote, -, unlessHidden⟩ := Merging.loop_unlessHidden oldStands newStands
    ascending (mapM_read_among shadowsRead) looped
  rw [keeps] at unlessHidden
  refine ⟨written, part, ?_, unlessHidden⟩
  rw [wrote.bucket, begins]

theorem metadata_shadowed (oldSorted : StrictlySorted oldBucket)
    (newSorted : StrictlySorted newBucket)
    (merged : merge maxProtocolVersion oldBucket newBucket shadows keepDeadEntries = .ok out) :
    metadata out = if FIRST_PROTOCOL_SUPPORTING_INITENTRY_AND_METAENTRY ≤
      mergeVersion oldBucket newBucket shadows then mergeVersion oldBucket newBucket shadows
      else 0 := by
  obtain ⟨written, part, same, -⟩ := merge_written oldSorted newSorted merged
  rw [same]
  apply metadata_header_append
  intro entry member
  exact keyed_mergeEntries oldBucket newBucket entry (part.subset member)

theorem legal_shadowed (oldSorted : StrictlySorted oldBucket) (newSorted : StrictlySorted newBucket)
    (oldLegal : Legal oldBucket) (newLegal : Legal newBucket)
    (merged : merge maxProtocolVersion oldBucket newBucket shadows keepDeadEntries = .ok out) :
    Legal out := by
  have supported := supported_mergeEntries oldLegal newLegal
  obtain ⟨written, part, same, -⟩ := merge_written oldSorted newSorted merged
  rw [same]
  apply legal_header_append
  · intro entry member
    exact keyed_mergeEntries oldBucket newBucket entry (part.subset member)
  · intro entry member created
    exact (supported entry (part.subset member) created).trans (le_foldl_metadata _ shadows)

/-- What a merge has of a key: what the table has of the lookups of its inputs, unless that is
dropped or hidden. -/
theorem lookup_shadowed (oldSorted : StrictlySorted oldBucket) (newSorted : StrictlySorted newBucket)
    (merged : merge maxProtocolVersion oldBucket newBucket shadows keepDeadEntries = .ok out)
    (key : κ) :
    lookup key out = join table (lookup key oldBucket) (lookup key newBucket) ∨
      lookup key out = none ∧ ∃ entry,
        join table (lookup key oldBucket) (lookup key newBucket) = some entry ∧
          (keepDeadEntries = false ∧ entry.isDead ∨
            Hidden shadows (HasLifecycles oldBucket newBucket shadows) entry) := by
  have sorted := merge_sorted oldSorted newSorted merged
  obtain ⟨written, part, same, unlessHidden⟩ := merge_unlessHidden oldSorted newSorted merged
  have keyed : ∀ entry ∈ written, entry.key? ≠ none := fun entry member =>
    keyed_mergeEntries oldBucket newBucket entry (part.subset member)
  rw [← lookup_entries sorted, same, entries_header_append _ keyed,
    ← lookup_mergeEntries oldSorted newSorted]
  have ascending := ascending_mergeEntries oldSorted newSorted
  have writtenAscending : Ascending BucketEntry.rank written := ascending.sublist part
  cases merged : lookup key (mergeEntries oldBucket newBucket) with
  | none =>
      left
      apply List.find?_eq_none.mpr
      intro entry member isKey
      exact List.find?_eq_none.mp merged entry (part.subset member) isKey
  | some entry =>
      have isKey := lookup_key merged
      have member : entry ∈ mergeEntries oldBucket newBucket := List.mem_of_find?_eq_some merged
      have whole (has : entry ∈ written) : lookup key written = some entry := by
        have found := writtenAscending.find_rank has
        have atKey : entry.rank = (key : WithBot κ) := isKey
        rw [atKey] at found
        exact found
      cases found : lookup key written with
      | some other =>
          left
          have inWritten : other ∈ written := List.mem_of_find?_eq_some found
          have rank : other.rank = entry.rank := (lookup_key found).trans isKey.symm
          have sameEntry : other = entry := by
            have foundOther := ascending.find_rank (part.subset inWritten)
            have foundEntry := ascending.find_rank member
            rw [rank, foundEntry] at foundOther
            exact (Option.some.inj foundOther).symm
          rw [sameEntry]
      | none =>
          refine .inr ⟨rfl, entry, rfl, ?_⟩
          have notWritten : entry ∉ written := by
            intro has
            rw [whole has] at found
            cases found
          by_cases kept : isWritten keepDeadEntries entry = true
          · exact .inr ((unlessHidden entry member kept).resolve_left notWritten)
          · left
            unfold isWritten at kept
            cases keepDeadEntries with
            | true => exact absurd rfl kept
            | false => exact ⟨rfl, by simpa using kept⟩

end Merge

end ViiCore.Bucket
