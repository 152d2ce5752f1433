import ViiCore.Bucket.MergeTable

/-!
What a merge makes of two buckets, key by key.

Apart from its metadata a merge writes the merge of two ascending lists in which the table says what
becomes of two entries of one key; shadows, and dead entries that are not kept, are left out of it.
-/

namespace ViiCore.Bucket

open SortedMerge (Ascending find join)

variable {κ ν : Type} [LinearOrder κ]

/-! ### Shadows -/

/-- The entry of a shadow and those behind it agree with its metadata. -/
def ReadableShadow (shadow : BucketInputIterator κ ν) : Prop :=
  Readable shadow.mMetadata shadow.mIn

omit [LinearOrder κ] in
theorem ReadableShadow.next {shadow : BucketInputIterator κ ν} (readable : ReadableShadow shadow) :
    ∃ after, shadow.next = .ok after ∧ ReadableShadow after := by
  obtain ⟨after, moved⟩ := loadEntry_readable shadow.mSeenMetadata shadow.mSeenOtherEntries readable
  obtain ⟨stands, same⟩ := loadEntry_stands (fun entry member => (readable entry member).1) moved
  refine ⟨after, moved, ?_⟩
  rw [ReadableShadow, same, stands.behind]
  intro entry member
  exact readable entry (List.mem_of_mem_tail member)

theorem skipBefore_ok (entry : BucketEntry κ ν) {fuel : Nat} {shadow : BucketInputIterator κ ν}
    (enough : remaining shadow < fuel) (readable : ReadableShadow shadow) :
    ∃ after, skipBefore entry fuel shadow = .ok after ∧ ReadableShadow after := by
  induction fuel generalizing shadow with
  | zero => exact absurd enough (Nat.not_lt_zero _)
  | succ fuel ih =>
      unfold skipBefore
      cases stands : shadow.mEntry with
      | none => exact ⟨shadow, rfl, readable⟩
      | some current =>
          dsimp only
          split
          · obtain ⟨next, moved, nextReadable⟩ := readable.next
            have fewer := next_remaining stands moved
            rw [moved]
            exact ih (by omega) nextReadable
          · exact ⟨shadow, rfl, readable⟩

theorem scanShadows_ok (entry : BucketEntry κ ν) {shadows : List (BucketInputIterator κ ν)}
    (readable : ∀ shadow ∈ shadows, ReadableShadow shadow) :
    ∃ shadowed after, scanShadows entry shadows = .ok (shadowed, after) ∧
      ∀ shadow ∈ after, ReadableShadow shadow := by
  induction shadows with
  | nil => exact ⟨false, [], rfl, readable⟩
  | cons shadow rest ih =>
      obtain ⟨first, others⟩ := List.forall_mem_cons.mp readable
      have enough : remaining shadow < shadow.mIn.length + 2 := by
        unfold remaining
        split <;> omega
      obtain ⟨moved, skipped, movedReadable⟩ := skipBefore_ok entry enough first
      obtain ⟨shadowed, after, scanned, afterReadable⟩ := ih others
      unfold scanShadows
      rw [skipped]
      simp only [bind, Except.bind]
      split
      · exact ⟨true, moved :: rest, rfl, List.forall_mem_cons.mpr ⟨movedReadable, others⟩⟩
      · rw [scanned]
        exact ⟨shadowed, moved :: after, rfl, List.forall_mem_cons.mpr ⟨movedReadable, afterReadable⟩⟩

namespace Merging

variable {protocolVersion : Nat} {keepShadowedLifecycleEntries : Bool} {merging after : Merging κ ν}

theorem maybePut_wrote {entry : BucketEntry κ ν} (keyed : entry.key? ≠ none)
    (ascending : Ascending BucketEntry.rank (merging.out.getBucket ++ [entry]))
    (put : merging.maybePut keepShadowedLifecycleEntries entry = .ok after) :
    ∃ written : Bucket κ ν, written.Sublist [entry] ∧ Wrote merging.out written after.out ∧
      (merging.shadowIterators = [] → after.shadowIterators = [] ∧
        written = [entry].filter (isWritten merging.out.mKeepDeadEntries)) := by
  unfold maybePut at put
  split at put
  · obtain ⟨out, written, same⟩ := except_bind_ok.mp put
    cases same
    exact ⟨_, List.filter_sublist, put_wrote keyed ascending written, fun none => ⟨none, rfl⟩⟩
  · obtain ⟨⟨shadowed, shadowIterators⟩, scanned, put⟩ := except_bind_ok.mp put
    dsimp only at put
    split at put
    · rename_i hidden
      cases put
      refine ⟨[], List.nil_sublist _, Wrote.nothing _, ?_⟩
      intro none
      rw [none] at scanned
      cases scanned
      cases hidden
    · obtain ⟨out, written, same⟩ := except_bind_ok.mp put
      cases same
      refine ⟨_, List.filter_sublist, put_wrote keyed ascending written, ?_⟩
      intro none
      rw [none] at scanned
      cases scanned
      exact ⟨rfl, rfl⟩

variable (keepShadowedLifecycleEntries) in
theorem maybePut_ok {entry : BucketEntry κ ν} (keyed : entry.key? ≠ none)
    (supported : Supported merging.out.mMeta entry)
    (ascending : Ascending BucketEntry.rank (merging.out.getBucket ++ [entry]))
    (readable : ∀ shadow ∈ merging.shadowIterators, ReadableShadow shadow) :
    ∃ after, merging.maybePut keepShadowedLifecycleEntries entry = .ok after ∧
      ∀ shadow ∈ after.shadowIterators, ReadableShadow shadow := by
  obtain ⟨out, put⟩ := put_ok keyed supported ascending
  obtain ⟨shadowed, shadowIterators, scanned, stillReadable⟩ := scanShadows_ok entry readable
  unfold maybePut
  split
  · rw [put]
    exact ⟨_, rfl, readable⟩
  · rw [scanned]
    cases shadowed with
    | true => exact ⟨_, rfl, stillReadable⟩
    | false =>
        rw [put]
        exact ⟨_, rfl, stillReadable⟩

/-! ### One round -/

/-- What one round does: the heads of the inputs are read, and what the merge has of them is put. -/
structure Round (keepShadowedLifecycleEntries : Bool) (merging after : Merging κ ν)
    (olds news : Bucket κ ν) (put : Option (BucketEntry κ ν)) (oldRest newRest : Bucket κ ν) :
    Prop where
  oldStands : Standing after.oi oldRest ∧ after.oi.mMetadata = merging.oi.mMetadata
  newStands : Standing after.ni newRest ∧ after.ni.mMetadata = merging.ni.mMetadata
  oldSuffix : oldRest <:+ olds
  newSuffix : newRest <:+ news
  fewer : oldRest.length + newRest.length < olds.length + news.length
  merged : SortedMerge.merge BucketEntry.rank table olds news =
    put.toList ++ SortedMerge.merge BucketEntry.rank table oldRest newRest
  wrote : ∃ middle, merging.putCombined keepShadowedLifecycleEntries put = .ok middle ∧
    after.out = middle.out ∧ after.shadowIterators = middle.shadowIterators

section Rounds

variable {olds news : Bucket κ ν} {old new : BucketEntry κ ν}

theorem acceptOld_round (oldStands : Standing merging.oi (old :: olds))
    (newStands : Standing merging.ni news)
    (first : SortedMerge.merge BucketEntry.rank table (old :: olds) news =
      old :: SortedMerge.merge BucketEntry.rank table olds news)
    (accepted : merging.acceptOld protocolVersion keepShadowedLifecycleEntries old = .ok after) :
    Round keepShadowedLifecycleEntries merging after (old :: olds) news (some old) olds news := by
  obtain ⟨middle, oi, put, moved, sameNew, rfl⟩ := acceptOld_cases accepted
  constructor
  · exact oldStands.next moved
  · rw [sameNew]
    exact ⟨newStands, rfl⟩
  · exact List.suffix_cons old olds
  · exact List.suffix_rfl
  · simp
  · exact first
  · exact ⟨middle, put, rfl, rfl⟩

theorem acceptNew_round (oldStands : Standing merging.oi olds)
    (newStands : Standing merging.ni (new :: news))
    (first : SortedMerge.merge BucketEntry.rank table olds (new :: news) =
      new :: SortedMerge.merge BucketEntry.rank table olds news)
    (accepted : merging.acceptNew protocolVersion keepShadowedLifecycleEntries new = .ok after) :
    Round keepShadowedLifecycleEntries merging after olds (new :: news) (some new) olds news := by
  obtain ⟨middle, ni, put, moved, sameOld, rfl⟩ := acceptNew_cases accepted
  constructor
  · rw [sameOld]
    exact ⟨oldStands, rfl⟩
  · exact newStands.next moved
  · exact List.suffix_rfl
  · exact List.suffix_cons new news
  · simp
  · exact first
  · exact ⟨middle, put, rfl, rfl⟩

theorem mergeCasesWithEqualKeys_round (oldStands : Standing merging.oi (old :: olds))
    (newStands : Standing merging.ni (new :: news)) (same : old.rank = new.rank)
    (ran : merging.mergeCasesWithEqualKeys protocolVersion keepShadowedLifecycleEntries old new =
      .ok after) :
    Round keepShadowedLifecycleEntries merging after (old :: olds) (new :: news) (table old new)
      olds news := by
  obtain ⟨_, -, ran⟩ := except_bind_ok.mp ran
  obtain ⟨_, -, ran⟩ := except_bind_ok.mp ran
  obtain ⟨combined, resolved, ran⟩ := except_bind_ok.mp ran
  obtain ⟨middle, put, ran⟩ := except_bind_ok.mp ran
  obtain ⟨oi, oldMoved, ran⟩ := except_bind_ok.mp ran
  obtain ⟨ni, newMoved, done⟩ := except_bind_ok.mp ran
  cases done
  obtain ⟨sameOld, sameNew⟩ := putCombined_inputs put
  rw [sameOld] at oldMoved
  rw [sameNew] at newMoved
  rw [combine_ok resolved] at put
  constructor
  · exact oldStands.next oldMoved
  · exact newStands.next newMoved
  · exact List.suffix_cons old olds
  · exact List.suffix_cons new news
  · simp only [List.length_cons]
    omega
  · exact SortedMerge.merge_of_eq same
  · exact ⟨middle, put, rfl, rfl⟩

theorem step_round (oldStands : Standing merging.oi olds) (newStands : Standing merging.ni news)
    (more : ¬ (olds = [] ∧ news = []))
    (stepped : merging.step protocolVersion keepShadowedLifecycleEntries = .ok after) :
    ∃ put oldRest newRest,
      Round keepShadowedLifecycleEntries merging after olds news put oldRest newRest := by
  unfold step at stepped
  rw [oldStands.entry, newStands.entry] at stepped
  cases olds with
  | nil =>
      cases news with
      | nil => exact absurd ⟨rfl, rfl⟩ more
      | cons new news =>
          exact ⟨_, _, _, acceptNew_round oldStands newStands (by simp) stepped⟩
  | cons old olds =>
      cases news with
      | nil => exact ⟨_, _, _, acceptOld_round oldStands newStands (by simp) stepped⟩
      | cons new news =>
          simp only [List.head?_cons, cmp_iff] at stepped
          split at stepped
          · rename_i before
            exact ⟨_, _, _, acceptOld_round oldStands newStands (SortedMerge.merge_of_lt before) stepped⟩
          · rename_i notBefore
            split at stepped
            · rename_i before
              exact ⟨_, _, _, acceptNew_round oldStands newStands (SortedMerge.merge_of_gt before)
                stepped⟩
            · rename_i notAfter
              have same := le_antisymm (not_lt.mp notAfter) (not_lt.mp notBefore)
              exact ⟨_, _, _, mergeCasesWithEqualKeys_round oldStands newStands same stepped⟩

theorem Round.written {put : Option (BucketEntry κ ν)} {oldRest newRest : Bucket κ ν}
    (round : Round keepShadowedLifecycleEntries merging after olds news put oldRest newRest)
    (keyed : ∀ entry ∈ put, entry.key? ≠ none)
    (ascending : Ascending BucketEntry.rank (merging.out.getBucket ++ put.toList)) :
    ∃ written : Bucket κ ν, written.Sublist put.toList ∧ Wrote merging.out written after.out ∧
      (merging.shadowIterators = [] → after.shadowIterators = [] ∧
        written = put.toList.filter (isWritten merging.out.mKeepDeadEntries)) := by
  obtain ⟨middle, ran, sameOut, sameShadows⟩ := round.wrote
  rw [sameOut, sameShadows]
  cases put with
  | none =>
      cases ran
      exact ⟨[], List.Sublist.refl _, Wrote.nothing _, fun none => ⟨none, rfl⟩⟩
  | some entry => exact maybePut_wrote (keyed entry rfl) ascending ran

omit [LinearOrder κ] in
theorem ended_iff (oldStands : Standing merging.oi olds) (newStands : Standing merging.ni news) :
    merging.oi.mEntry.isNone ∧ merging.ni.mEntry.isNone ↔ olds = [] ∧ news = [] := by
  rw [oldStands.entry, newStands.entry]
  simp

end Rounds

/-! ### All rounds -/

theorem keyed_merge {olds news : Bucket κ ν} (oldKeyed : ∀ entry ∈ olds, entry.key? ≠ none)
    (newKeyed : ∀ entry ∈ news, entry.key? ≠ none) :
    ∀ entry ∈ SortedMerge.merge BucketEntry.rank table olds news, entry.key? ≠ none := by
  intro entry member
  obtain ⟨source, among, same⟩ := SortedMerge.rank_of_mem_merge table_keepsRank member
  have sameKey : source.key? = entry.key? := same
  rw [← sameKey]
  rcases List.mem_append.mp among with isOld | isNew
  · exact oldKeyed source isOld
  · exact newKeyed source isNew

theorem loop_written {fuel : Nat} {olds news : Bucket κ ν} (oldStands : Standing merging.oi olds)
    (newStands : Standing merging.ni news)
    (ascending : Ascending BucketEntry.rank
      (merging.out.getBucket ++ SortedMerge.merge BucketEntry.rank table olds news))
    (looped : loop protocolVersion keepShadowedLifecycleEntries fuel merging = .ok after) :
    ∃ written : Bucket κ ν, written.Sublist (SortedMerge.merge BucketEntry.rank table olds news) ∧
      Wrote merging.out written after.out ∧
      (merging.shadowIterators = [] →
        written = (SortedMerge.merge BucketEntry.rank table olds news).filter
          (isWritten merging.out.mKeepDeadEntries)) := by
  induction fuel generalizing merging olds news with
  | zero => cases looped
  | succ fuel ih =>
      unfold loop at looped
      simp only [ended_iff oldStands newStands] at looped
      split at looped
      · rename_i ended
        obtain ⟨rfl, rfl⟩ := ended
        cases looped
        exact ⟨[], List.nil_sublist _, Wrote.nothing _, fun _ => by simp⟩
      · rename_i more
        obtain ⟨next, stepped, rest⟩ := except_bind_ok.mp looped
        obtain ⟨put, oldRest, newRest, round⟩ := step_round oldStands newStands more stepped
        rw [round.merged] at ascending ⊢
        have keyed : ∀ entry ∈ put, entry.key? ≠ none := by
          intro entry isPut
          apply keyed_merge oldStands.keyed newStands.keyed
          rw [round.merged]
          exact List.mem_append_left _ (Option.mem_toList.mpr isPut)
        rw [← List.append_assoc] at ascending
        obtain ⟨first, firstAmong, wroteFirst, firstExact⟩ :=
          round.written keyed (ascending.sublist (List.sublist_append_left _ _))
        have stillAscending : Ascending BucketEntry.rank (next.out.getBucket ++
            SortedMerge.merge BucketEntry.rank table oldRest newRest) := by
          rw [wroteFirst.bucket]
          exact List.Pairwise.sublist ((firstAmong.append_left _).append_right _) ascending
        obtain ⟨later, laterAmong, wroteLater, laterExact⟩ :=
          ih round.oldStands.1 round.newStands.1 stillAscending rest
        refine ⟨first ++ later, firstAmong.append laterAmong, wroteFirst.trans wroteLater, ?_⟩
        intro none
        obtain ⟨stillNone, sameFirst⟩ := firstExact none
        rw [List.filter_append, sameFirst, laterExact stillNone, wroteFirst.keep]

/-! ### Merges that end without a fault -/

/-- Nothing that is yet to be read makes a merge throw. -/
structure Unobstructed (protocolVersion : Nat) (merging : Merging κ ν) (olds news : Bucket κ ν) :
    Prop where
  version : merging.out.mMeta = protocolVersion
  old : ∀ entry ∈ olds, Supported protocolVersion entry ∧ Supported merging.oi.mMetadata entry
  new : ∀ entry ∈ news, Supported protocolVersion entry ∧ Supported merging.ni.mMetadata entry
  shadows : ∀ shadow ∈ merging.shadowIterators, ReadableShadow shadow
  follows : ∀ oldEntry ∈ olds, ∀ newEntry ∈ news, oldEntry.rank = newEntry.rank →
    newEntry.isInit → oldEntry.isDead

theorem supported_merge {version : Nat} {olds news : Bucket κ ν}
    (old : ∀ entry ∈ olds, Supported version entry) (new : ∀ entry ∈ news, Supported version entry) :
    ∀ entry ∈ SortedMerge.merge BucketEntry.rank table olds news, Supported version entry := by
  intro entry member
  fun_induction SortedMerge.merge BucketEntry.rank table olds news with
  | case1 news => exact new entry member
  | case2 olds => exact old entry member
  | case3 oldEntry olds newEntry news before ih =>
      rcases List.mem_cons.mp member with same | later
      · rw [same]
        exact old oldEntry List.mem_cons_self
      · exact ih (fun other isOld => old other (List.mem_cons_of_mem _ isOld)) new later
  | case4 oldEntry olds newEntry news _ before ih =>
      rcases List.mem_cons.mp member with same | later
      · rw [same]
        exact new newEntry List.mem_cons_self
      · exact ih old (fun other isNew => new other (List.mem_cons_of_mem _ isNew)) later
  | case5 oldEntry olds newEntry news _ _ ih =>
      rcases List.mem_append.mp member with here | later
      · intro created
        rcases table_init (Option.mem_toList.mp here) created with oldCreated | newCreated
        · exact old oldEntry List.mem_cons_self oldCreated
        · exact new newEntry List.mem_cons_self newCreated
      · exact ih (fun other isOld => old other (List.mem_cons_of_mem _ isOld))
          (fun other isNew => new other (List.mem_cons_of_mem _ isNew)) later

section Steps

variable {olds news : Bucket κ ν} {old new : BucketEntry κ ν}

omit [LinearOrder κ] in
theorem next_ok {iterator : BucketInputIterator κ ν} {rest : Bucket κ ν}
    (stands : Standing iterator rest)
    (supported : ∀ entry ∈ rest, Supported iterator.mMetadata entry) :
    ∃ after, iterator.next = .ok after := by
  apply loadEntry_readable
  rw [stands.behind]
  intro entry member
  have inRest := List.mem_of_mem_tail member
  exact ⟨stands.keyed entry inRest, supported entry inRest⟩

theorem acceptOld_ok (oldStands : Standing merging.oi (old :: olds))
    (unobstructed : Unobstructed protocolVersion merging (old :: olds) news)
    (ascending : Ascending BucketEntry.rank (merging.out.getBucket ++ [old])) :
    ∃ after, merging.acceptOld protocolVersion keepShadowedLifecycleEntries old = .ok after ∧
      ∀ shadow ∈ after.shadowIterators, ReadableShadow shadow := by
  have keyed := oldStands.keyed old List.mem_cons_self
  obtain ⟨supported, _⟩ := unobstructed.old old List.mem_cons_self
  have supportedOut : Supported merging.out.mMeta old := by
    rw [unobstructed.version]
    exact supported
  obtain ⟨middle, put, readable⟩ := maybePut_ok keepShadowedLifecycleEntries keyed supportedOut
    ascending unobstructed.shadows
  obtain ⟨oi, moved⟩ := next_ok oldStands fun entry member => (unobstructed.old entry member).2
  rw [← (maybePut_inputs put).1] at moved
  unfold acceptOld
  rw [checkProtocolLegality_supported keyed supported]
  simp only [bind, Except.bind, put, moved]
  exact ⟨_, rfl, readable⟩

theorem acceptNew_ok (newStands : Standing merging.ni (new :: news))
    (unobstructed : Unobstructed protocolVersion merging olds (new :: news))
    (ascending : Ascending BucketEntry.rank (merging.out.getBucket ++ [new])) :
    ∃ after, merging.acceptNew protocolVersion keepShadowedLifecycleEntries new = .ok after ∧
      ∀ shadow ∈ after.shadowIterators, ReadableShadow shadow := by
  have keyed := newStands.keyed new List.mem_cons_self
  obtain ⟨supported, _⟩ := unobstructed.new new List.mem_cons_self
  have supportedOut : Supported merging.out.mMeta new := by
    rw [unobstructed.version]
    exact supported
  obtain ⟨middle, put, readable⟩ := maybePut_ok keepShadowedLifecycleEntries keyed supportedOut
    ascending unobstructed.shadows
  obtain ⟨ni, moved⟩ := next_ok newStands fun entry member => (unobstructed.new entry member).2
  rw [← (maybePut_inputs put).2] at moved
  unfold acceptNew
  rw [checkProtocolLegality_supported keyed supported]
  simp only [bind, Except.bind, put, moved]
  exact ⟨_, rfl, readable⟩

variable (keepShadowedLifecycleEntries) in
theorem putCombined_ok {combined : Option (BucketEntry κ ν)}
    (keyed : ∀ entry ∈ combined, entry.key? ≠ none)
    (supported : ∀ entry ∈ combined, Supported merging.out.mMeta entry)
    (ascending : Ascending BucketEntry.rank (merging.out.getBucket ++ combined.toList))
    (readable : ∀ shadow ∈ merging.shadowIterators, ReadableShadow shadow) :
    ∃ after, merging.putCombined keepShadowedLifecycleEntries combined = .ok after ∧
      ∀ shadow ∈ after.shadowIterators, ReadableShadow shadow := by
  cases combined with
  | none => exact ⟨merging, rfl, readable⟩
  | some entry => exact maybePut_ok _ (keyed entry rfl) (supported entry rfl) ascending readable

theorem mergeCasesWithEqualKeys_ok (oldStands : Standing merging.oi (old :: olds))
    (newStands : Standing merging.ni (new :: news)) (same : old.rank = new.rank)
    (unobstructed : Unobstructed protocolVersion merging (old :: olds) (new :: news))
    (ascending : Ascending BucketEntry.rank
      (merging.out.getBucket ++ (table old new).toList)) :
    ∃ after, merging.mergeCasesWithEqualKeys protocolVersion keepShadowedLifecycleEntries old new =
        .ok after ∧
      ∀ shadow ∈ after.shadowIterators, ReadableShadow shadow := by
  have oldKeyed := oldStands.keyed old List.mem_cons_self
  have newKeyed := newStands.keyed new List.mem_cons_self
  obtain ⟨oldSupported, _⟩ := unobstructed.old old List.mem_cons_self
  obtain ⟨newSupported, _⟩ := unobstructed.new new List.mem_cons_self
  have keyed : ∀ entry ∈ table old new, entry.key? ≠ none := by
    intro entry resolved
    have sameKey : entry.key? = new.key? := table_keepsRank old new entry same resolved
    rw [sameKey]
    exact newKeyed
  have supported : ∀ entry ∈ table old new, Supported merging.out.mMeta entry := by
    intro entry resolved created
    rw [unobstructed.version]
    exact (table_init resolved created).elim oldSupported newSupported
  obtain ⟨middle, put, readable⟩ := putCombined_ok keepShadowedLifecycleEntries keyed supported
    ascending unobstructed.shadows
  obtain ⟨oi, oldMoved⟩ := next_ok oldStands fun entry member => (unobstructed.old entry member).2
  obtain ⟨ni, newMoved⟩ := next_ok newStands fun entry member => (unobstructed.new entry member).2
  obtain ⟨sameOld, sameNew⟩ := putCombined_inputs put
  rw [← sameOld] at oldMoved
  rw [← sameNew] at newMoved
  have follows := unobstructed.follows old List.mem_cons_self new List.mem_cons_self same
  unfold mergeCasesWithEqualKeys
  rw [checkProtocolLegality_supported oldKeyed oldSupported,
    checkProtocolLegality_supported newKeyed newSupported, combine_of_follows newKeyed follows]
  simp only [bind, Except.bind, put, oldMoved, newMoved]
  exact ⟨_, rfl, readable⟩

variable (keepShadowedLifecycleEntries) in
theorem step_ok (oldStands : Standing merging.oi olds) (newStands : Standing merging.ni news)
    (more : ¬ (olds = [] ∧ news = []))
    (unobstructed : Unobstructed protocolVersion merging olds news)
    (ascending : Ascending BucketEntry.rank
      (merging.out.getBucket ++ SortedMerge.merge BucketEntry.rank table olds news)) :
    ∃ after, merging.step protocolVersion keepShadowedLifecycleEntries = .ok after ∧
      ∀ shadow ∈ after.shadowIterators, ReadableShadow shadow := by
  have puts : ∀ put rest : Bucket κ ν,
      SortedMerge.merge BucketEntry.rank table olds news = put ++ rest →
        Ascending BucketEntry.rank (merging.out.getBucket ++ put) := by
    intro put rest merged
    rw [merged, ← List.append_assoc] at ascending
    exact ascending.sublist (List.sublist_append_left _ _)
  unfold step
  rw [oldStands.entry, newStands.entry]
  cases olds with
  | nil =>
      cases news with
      | nil => exact absurd ⟨rfl, rfl⟩ more
      | cons new news => exact acceptNew_ok newStands unobstructed (puts [new] news (by simp))
  | cons old olds =>
      cases news with
      | nil => exact acceptOld_ok oldStands unobstructed (puts [old] olds (by simp))
      | cons new news =>
          simp only [List.head?_cons, cmp_iff]
          split
          · rename_i before
            exact acceptOld_ok oldStands unobstructed (puts [old] _ (SortedMerge.merge_of_lt before))
          · rename_i notBefore
            split
            · rename_i before
              exact acceptNew_ok newStands unobstructed (puts [new] _ (SortedMerge.merge_of_gt before))
            · rename_i notAfter
              have same := le_antisymm (not_lt.mp notAfter) (not_lt.mp notBefore)
              exact mergeCasesWithEqualKeys_ok oldStands newStands same unobstructed
                (puts _ _ (SortedMerge.merge_of_eq same))

variable (keepShadowedLifecycleEntries) in
theorem loop_ok {fuel : Nat} (enough : olds.length + news.length < fuel)
    (oldStands : Standing merging.oi olds) (newStands : Standing merging.ni news)
    (unobstructed : Unobstructed protocolVersion merging olds news)
    (ascending : Ascending BucketEntry.rank
      (merging.out.getBucket ++ SortedMerge.merge BucketEntry.rank table olds news)) :
    ∃ after, loop protocolVersion keepShadowedLifecycleEntries fuel merging = .ok after := by
  induction fuel generalizing merging olds news with
  | zero => exact absurd enough (Nat.not_lt_zero _)
  | succ fuel ih =>
      unfold loop
      simp only [ended_iff oldStands newStands]
      split
      · exact ⟨merging, rfl⟩
      · rename_i more
        obtain ⟨next, stepped, readable⟩ := step_ok keepShadowedLifecycleEntries oldStands newStands
          more unobstructed ascending
        obtain ⟨put, oldRest, newRest, round⟩ := step_round oldStands newStands more stepped
        have keyed := keyed_merge oldStands.keyed newStands.keyed
        rw [round.merged] at ascending keyed
        rw [← List.append_assoc] at ascending
        obtain ⟨first, firstAmong, wroteFirst, _⟩ := round.written
          (fun entry isPut => keyed entry (List.mem_append_left _ (Option.mem_toList.mpr isPut)))
          (ascending.sublist (List.sublist_append_left _ _))
        have stillAscending : Ascending BucketEntry.rank (next.out.getBucket ++
            SortedMerge.merge BucketEntry.rank table oldRest newRest) := by
          rw [wroteFirst.bucket]
          exact List.Pairwise.sublist ((firstAmong.append_left _).append_right _) ascending
        have stillUnobstructed : Unobstructed protocolVersion next oldRest newRest := by
          constructor
          · exact wroteFirst.version.trans unobstructed.version
          · intro entry member
            rw [round.oldStands.2]
            exact unobstructed.old entry (round.oldSuffix.subset member)
          · intro entry member
            rw [round.newStands.2]
            exact unobstructed.new entry (round.newSuffix.subset member)
          · exact readable
          · intro oldEntry isOld newEntry isNew
            exact unobstructed.follows oldEntry (round.oldSuffix.subset isOld) newEntry
              (round.newSuffix.subset isNew)
        simp only [bind, Except.bind, stepped]
        have fewer := round.fewer
        exact ih (by omega) round.oldStands.1 round.newStands.1 stillUnobstructed stillAscending

end Steps

end Merging

/-! ### The merge of two buckets -/

def mergeEntries (oldBucket newBucket : Bucket κ ν) : Bucket κ ν :=
  SortedMerge.merge BucketEntry.rank table (entries oldBucket) (entries newBucket)

section Merge

variable {maxProtocolVersion : Nat} {oldBucket newBucket out : Bucket κ ν}
  {shadows : List (Bucket κ ν)} {keepDeadEntries : Bool}

theorem keyed_mergeEntries (oldBucket newBucket : Bucket κ ν) :
    ∀ entry ∈ mergeEntries oldBucket newBucket, entry.key? ≠ none :=
  Merging.keyed_merge (fun _ member => keyed_of_mem_entries member)
    (fun _ member => keyed_of_mem_entries member)

theorem ascending_mergeEntries (oldSorted : StrictlySorted oldBucket)
    (newSorted : StrictlySorted newBucket) :
    Ascending BucketEntry.rank (mergeEntries oldBucket newBucket) :=
  SortedMerge.ascending_merge table_keepsRank oldSorted.ascending_entries newSorted.ascending_entries

omit [LinearOrder κ] in
theorem mergeVersion_within {oi ni : BucketInputIterator κ ν}
    {shadowIterators : List (BucketInputIterator κ ν)} {calculated : Nat × Bool}
    (oldRead : BucketInputIterator.read oldBucket = .ok oi)
    (newRead : BucketInputIterator.read newBucket = .ok ni)
    (shadowsRead : shadows.mapM BucketInputIterator.read = .ok shadowIterators)
    (ran : calculateMergeProtocolVersion maxProtocolVersion oi ni shadowIterators = .ok calculated) :
    calculated = (mergeVersion oldBucket newBucket shadows,
      decide (mergeVersion oldBucket newBucket shadows ≥
        FIRST_PROTOCOL_SUPPORTING_INITENTRY_AND_METAENTRY)) := by
  unfold calculateMergeProtocolVersion at ran
  rw [foldl_read shadowsRead, read_metadata oldRead, read_metadata newRead] at ran
  dsimp only at ran
  split at ran
  · cases ran
  · cases ran
    rfl

theorem merge_loops (oldSorted : StrictlySorted oldBucket) (newSorted : StrictlySorted newBucket)
    (merged : merge maxProtocolVersion oldBucket newBucket shadows keepDeadEntries = .ok out) :
    ∃ (merging last : Merging κ ν) (fuel : Nat),
      shadows.mapM BucketInputIterator.read = .ok merging.shadowIterators ∧
      Standing merging.oi (entries oldBucket) ∧ Standing merging.ni (entries newBucket) ∧
      merging.out.getBucket = header (mergeVersion oldBucket newBucket shadows) ∧
      merging.out.mKeepDeadEntries = keepDeadEntries ∧
      Ascending BucketEntry.rank (merging.out.getBucket ++ mergeEntries oldBucket newBucket) ∧
      Merging.loop (mergeVersion oldBucket newBucket shadows)
        (decide (mergeVersion oldBucket newBucket shadows ≥
          FIRST_PROTOCOL_SUPPORTING_INITENTRY_AND_METAENTRY)) fuel merging = .ok last ∧
      out = last.out.getBucket := by
  obtain ⟨oi, oldRead, merged⟩ := except_bind_ok.mp merged
  obtain ⟨ni, newRead, merged⟩ := except_bind_ok.mp merged
  obtain ⟨shadowIterators, shadowsRead, merged⟩ := except_bind_ok.mp merged
  obtain ⟨calculated, ran, merged⟩ := except_bind_ok.mp merged
  rw [mergeVersion_within oldRead newRead shadowsRead ran] at merged
  obtain ⟨first, created, merged⟩ := except_bind_ok.mp merged
  obtain ⟨last, looped, same⟩ := except_bind_ok.mp merged
  cases same
  obtain ⟨start, createdStart, begins, keeps, _⟩ := create_wrote (κ := κ) (ν := ν) keepDeadEntries
    (mergeVersion oldBucket newBucket shadows)
  rw [createdStart] at created
  cases created
  have ascending := ascending_header_append (mergeVersion oldBucket newBucket shadows)
    (keyed_mergeEntries oldBucket newBucket) (ascending_mergeEntries oldSorted newSorted)
  rw [← begins] at ascending
  exact ⟨_, last, _, shadowsRead, oldSorted.read oldRead, newSorted.read newRead, begins, keeps,
    ascending, looped, rfl⟩

theorem merge_written (oldSorted : StrictlySorted oldBucket) (newSorted : StrictlySorted newBucket)
    (merged : merge maxProtocolVersion oldBucket newBucket shadows keepDeadEntries = .ok out) :
    ∃ written : Bucket κ ν, written.Sublist (mergeEntries oldBucket newBucket) ∧
      out = header (mergeVersion oldBucket newBucket shadows) ++ written ∧
      (shadows = [] →
        written = (mergeEntries oldBucket newBucket).filter (isWritten keepDeadEntries)) := by
  obtain ⟨merging, last, fuel, shadowsRead, oldStands, newStands, begins, keeps, ascending, looped,
    rfl⟩ := merge_loops oldSorted newSorted merged
  obtain ⟨written, among, wrote, exact⟩ := Merging.loop_written oldStands newStands ascending looped
  refine ⟨written, among, ?_, ?_⟩
  · rw [wrote.bucket, begins]
  · rintro rfl
    rw [exact (Except.ok.inj shadowsRead).symm, keeps]
    rfl

theorem mapM_read_ok (readable : ∀ shadow ∈ shadows, StrictlySorted shadow ∧ Legal shadow) :
    ∃ shadowIterators, shadows.mapM BucketInputIterator.read = .ok shadowIterators ∧
      ∀ shadow ∈ shadowIterators, ReadableShadow shadow := by
  induction shadows with
  | nil => exact ⟨[], rfl, fun _ absent => (by cases absent)⟩
  | cons shadow rest ih =>
      obtain ⟨⟨sorted, legal⟩, others⟩ := List.forall_mem_cons.mp readable
      obtain ⟨iterator, opened⟩ := sorted.read_ok legal
      obtain ⟨iterators, openedRest, readableRest⟩ := ih others
      have first : ReadableShadow iterator := by
        rw [ReadableShadow, read_metadata opened, (sorted.read opened).behind]
        intro entry member
        exact legal.readable entry (List.mem_of_mem_tail member)
      refine ⟨iterator :: iterators, ?_, List.forall_mem_cons.mpr ⟨first, readableRest⟩⟩
      rw [List.mapM_cons, opened, openedRest]
      rfl

omit [LinearOrder κ] in
theorem le_foldl_metadata (start : Nat) (shadows : List (Bucket κ ν)) :
    start ≤ shadows.foldl (fun version shadow => max (metadata shadow) version) start := by
  induction shadows generalizing start with
  | nil => exact le_rfl
  | cons shadow rest ih => exact (le_max_right _ _).trans (ih _)

theorem merge_ok (oldSorted : StrictlySorted oldBucket) (newSorted : StrictlySorted newBucket)
    (oldLegal : Legal oldBucket) (newLegal : Legal newBucket)
    (follows : ∀ old ∈ entries oldBucket, ∀ new ∈ entries newBucket, old.rank = new.rank →
      new.isInit → old.isDead)
    (readable : ∀ shadow ∈ shadows, StrictlySorted shadow ∧ Legal shadow)
    (within : mergeVersion oldBucket newBucket shadows ≤ maxProtocolVersion)
    (keepDeadEntries : Bool) :
    ∃ out, merge maxProtocolVersion oldBucket newBucket shadows keepDeadEntries = .ok out := by
  obtain ⟨oi, oldRead⟩ := oldSorted.read_ok oldLegal
  obtain ⟨ni, newRead⟩ := newSorted.read_ok newLegal
  obtain ⟨shadowIterators, shadowsRead, shadowsReadable⟩ := mapM_read_ok readable
  obtain ⟨first, created, begins, _, version⟩ := create_wrote (κ := κ) (ν := ν) keepDeadEntries
    (mergeVersion oldBucket newBucket shadows)
  have ascending := ascending_header_append (mergeVersion oldBucket newBucket shadows)
    (keyed_mergeEntries oldBucket newBucket) (ascending_mergeEntries oldSorted newSorted)
  rw [← begins] at ascending
  have oldest : metadata oldBucket ≤ mergeVersion oldBucket newBucket shadows :=
    (le_max_left _ _).trans (le_foldl_metadata _ shadows)
  have newest : metadata newBucket ≤ mergeVersion oldBucket newBucket shadows :=
    (le_max_right _ _).trans (le_foldl_metadata _ shadows)
  have unobstructed : Merging.Unobstructed (mergeVersion oldBucket newBucket shadows)
      { oi, ni, shadowIterators, out := first } (entries oldBucket) (entries newBucket) := by
    constructor
    · exact version
    · intro entry member
      have supported := oldLegal entry (List.mem_of_mem_filter member)
      refine ⟨fun isInit => (supported isInit).trans oldest, ?_⟩
      rw [read_metadata oldRead]
      exact supported
    · intro entry member
      have supported := newLegal entry (List.mem_of_mem_filter member)
      refine ⟨fun isInit => (supported isInit).trans newest, ?_⟩
      rw [read_metadata newRead]
      exact supported
    · exact shadowsReadable
    · exact follows
  have enough : (entries oldBucket).length + (entries newBucket).length <
      oldBucket.length + newBucket.length + 1 := by
    have oldFewer : (entries oldBucket).length ≤ oldBucket.length := List.length_filter_le _ _
    have newFewer : (entries newBucket).length ≤ newBucket.length := List.length_filter_le _ _
    omega
  obtain ⟨last, looped⟩ := Merging.loop_ok
    (decide (mergeVersion oldBucket newBucket shadows ≥
      FIRST_PROTOCOL_SUPPORTING_INITENTRY_AND_METAENTRY))
    enough (oldSorted.read oldRead) (newSorted.read newRead) unobstructed ascending
  refine ⟨last.out.getBucket, ?_⟩
  unfold merge
  rw [oldRead, newRead]
  simp only [bind, Except.bind, shadowsRead, created, looped,
    calculateMergeProtocolVersion_read oldRead newRead shadowsRead within]
  rfl

end Merge

end ViiCore.Bucket
