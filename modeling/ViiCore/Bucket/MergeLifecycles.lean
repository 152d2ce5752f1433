import ViiCore.Bucket.LedgerCmp
import ViiCore.Bucket.MergedEntries

/-!
Merges in any order.

A bucket that is strictly sorted is known from its lookups, and a merge without shadows looks up
what the table has of the lookups of its inputs. The table is associative where the entries of each
key follow each other as the life of a ledger entry does, so it does not matter there which of
three buckets are merged first.
-/

namespace ViiCore.Bucket

open SortedMerge (Ascending find join)

variable {κ ν : Type}

/-! ### The life of a key -/

/-- The entries of a key, oldest first: a key is created only where it is dead; and where some
creation was recorded, a dead key is only created. Before the protocol has INIT entries no creation
is recorded. -/
def Lifecycle : Bool → List (BucketEntry κ ν) → Prop
  | recorded, old :: new :: rest =>
      (new.isInit → old.isDead) ∧ (recorded → old.isDead → new.isInit) ∧
        Lifecycle (recorded || old.isInit) (new :: rest)
  | _, _ => True

theorem Lifecycle.forget {recorded : Bool} {life : List (BucketEntry κ ν)}
    (lives : Lifecycle recorded life) : Lifecycle false life := by
  induction life generalizing recorded with
  | nil => exact trivial
  | cons old rest ih =>
      cases rest with
      | nil => exact trivial
      | cons new rest =>
          obtain ⟨created, _, later⟩ := lives
          refine ⟨created, fun impossible => absurd impossible Bool.false_ne_true, ?_⟩
          cases oldCreated : old.isInit with
          | true =>
              rw [oldCreated, Bool.or_true] at later
              exact later
          | false => exact ih later

theorem Lifecycle.of_append_left {recorded : Bool} {early late : List (BucketEntry κ ν)}
    (lives : Lifecycle recorded (early ++ late)) : Lifecycle recorded early := by
  induction early generalizing recorded with
  | nil => exact trivial
  | cons old rest ih =>
      cases rest with
      | nil => exact trivial
      | cons new rest => exact ⟨lives.1, lives.2.1, ih lives.2.2⟩

theorem Lifecycle.of_append_right {recorded : Bool} {early late : List (BucketEntry κ ν)}
    (lives : Lifecycle recorded (early ++ late)) : Lifecycle false late := by
  induction early generalizing recorded with
  | nil => exact lives.forget
  | cons old rest ih =>
      cases rest with
      | nil =>
          cases late with
          | nil => exact trivial
          | cons new late => exact lives.2.2.forget
      | cons new rest => exact ih lives.2.2

theorem table_assoc {key : κ} {first second third : BucketEntry κ ν}
    (firstKey : first.key? = some key) (secondKey : second.key? = some key)
    (thirdKey : third.key? = some key) (life : Lifecycle false [first, second, third]) :
    join table (table first second) (some third) = join table (some first) (table second third) := by
  simp only [Lifecycle, Bool.false_or, Bool.false_eq_true, false_implies, true_and, and_true] at life
  obtain ⟨fromFirst, fromSecond, recorded⟩ := life
  cases second with
  | METAENTRY ledgerVersion => cases secondKey
  | LIVEENTRY secondKey secondValue =>
      -- A live entry is never followed by a creation.
      cases third with
      | METAENTRY ledgerVersion => cases thirdKey
      | LIVEENTRY thirdKey thirdValue => cases first <;> rfl
      | DEADENTRY thirdKey => cases first <;> rfl
      | INITENTRY thirdKey thirdValue => exact absurd (fromSecond rfl) Bool.false_ne_true
  | DEADENTRY secondKey =>
      cases first with
      | INITENTRY firstKey firstValue =>
          -- The creation was recorded, so only another one can follow.
          cases third with
          | METAENTRY ledgerVersion => cases thirdKey
          | LIVEENTRY thirdKey thirdValue => exact absurd (recorded rfl rfl) Bool.false_ne_true
          | DEADENTRY thirdKey => exact absurd (recorded rfl rfl) Bool.false_ne_true
          | INITENTRY thirdKey thirdValue => rfl
      | METAENTRY ledgerVersion => cases firstKey
      | LIVEENTRY firstKey firstValue => cases third <;> rfl
      | DEADENTRY firstKey => cases third <;> rfl
  | INITENTRY secondKey secondValue =>
      cases first with
      | METAENTRY ledgerVersion => cases firstKey
      | LIVEENTRY firstKey firstValue => exact absurd (fromFirst rfl) Bool.false_ne_true
      | INITENTRY firstKey firstValue => exact absurd (fromFirst rfl) Bool.false_ne_true
      | DEADENTRY firstKey =>
          cases third with
          | METAENTRY ledgerVersion => cases thirdKey
          | LIVEENTRY thirdKey thirdValue => rfl
          | DEADENTRY thirdKey =>
              cases firstKey
              cases thirdKey
              rfl
          | INITENTRY thirdKey thirdValue => exact absurd (fromSecond rfl) Bool.false_ne_true

variable [LinearOrder κ]

def lifeOf (key : κ) (buckets : List (Bucket κ ν)) : List (BucketEntry κ ν) :=
  buckets.filterMap (lookup key)

def WellFormed (buckets : List (Bucket κ ν)) : Prop := ∀ key, Lifecycle false (lifeOf key buckets)

theorem lookup_key {key : κ} {bucket : Bucket κ ν} {entry : BucketEntry κ ν}
    (found : lookup key bucket = some entry) : entry.key? = some key := by
  simpa using List.find?_some found

theorem lookup_assoc {key : κ} {first second third : Bucket κ ν}
    (life : Lifecycle false (lifeOf key [first, second, third])) :
    join table (join table (lookup key first) (lookup key second)) (lookup key third) =
      join table (lookup key first) (join table (lookup key second) (lookup key third)) := by
  cases inSecond : lookup key second with
  | none => simp
  | some middle =>
      cases inFirst : lookup key first with
      | none => simp
      | some early =>
          cases inThird : lookup key third with
          | none => simp
          | some late =>
              have life : Lifecycle false [early, middle, late] := by
                simpa [lifeOf, inFirst, inSecond, inThird] using life
              exact table_assoc (lookup_key inFirst) (lookup_key inSecond) (lookup_key inThird) life

/-! ### Merged buckets -/

section Merged

variable {maxProtocolVersion : Nat} {oldBucket newBucket out : Bucket κ ν}

theorem merge_plain (oldSorted : StrictlySorted oldBucket) (newSorted : StrictlySorted newBucket)
    (merged : merge maxProtocolVersion oldBucket newBucket [] true = .ok out) :
    out = header (max (metadata oldBucket) (metadata newBucket)) ++ mergeEntries oldBucket newBucket := by
  obtain ⟨written, _, same, exact⟩ := merge_written oldSorted newSorted merged
  rw [same, exact rfl]
  congr 1
  exact List.filter_eq_self.mpr fun entry _ => rfl

theorem noShadows :
    ∀ shadow ∈ ([] : List (Bucket κ ν)), StrictlySorted shadow ∧ Legal shadow := by
  intro shadow absent
  cases absent

theorem merge_sorted {shadows : List (Bucket κ ν)} {keepDeadEntries : Bool}
    (oldSorted : StrictlySorted oldBucket) (newSorted : StrictlySorted newBucket)
    (merged : merge maxProtocolVersion oldBucket newBucket shadows keepDeadEntries = .ok out) :
    StrictlySorted out := by
  obtain ⟨written, among, same, _⟩ := merge_written oldSorted newSorted merged
  rw [same, strictlySorted_iff]
  apply ascending_header_append
  · intro entry member
    exact keyed_mergeEntries oldBucket newBucket entry (among.subset member)
  · exact List.Pairwise.sublist among (ascending_mergeEntries oldSorted newSorted)

theorem lookup_mergeEntries (oldSorted : StrictlySorted oldBucket)
    (newSorted : StrictlySorted newBucket) (key : κ) :
    lookup key (mergeEntries oldBucket newBucket) =
      join table (lookup key oldBucket) (lookup key newBucket) := by
  rw [← lookup_entries oldSorted, ← lookup_entries newSorted]
  exact SortedMerge.find_merge table_keepsRank oldSorted.ascending_entries
    newSorted.ascending_entries _

theorem lookup_merge {keepDeadEntries : Bool} (oldSorted : StrictlySorted oldBucket)
    (newSorted : StrictlySorted newBucket)
    (merged : merge maxProtocolVersion oldBucket newBucket [] keepDeadEntries = .ok out) (key : κ) :
    lookup key out =
      (join table (lookup key oldBucket) (lookup key newBucket)).filter (isWritten keepDeadEntries) := by
  have sorted := merge_sorted oldSorted newSorted merged
  obtain ⟨written, _, same, exact⟩ := merge_written oldSorted newSorted merged
  have keyed : ∀ entry ∈ written, entry.key? ≠ none := by
    rw [exact rfl]
    intro entry member
    exact keyed_mergeEntries oldBucket newBucket entry (List.mem_of_mem_filter member)
  rw [← lookup_entries sorted, same, entries_header_append _ keyed, exact rfl, lookup_eq_find,
    (ascending_mergeEntries oldSorted newSorted).find_filter, ← lookup_eq_find,
    lookup_mergeEntries oldSorted newSorted]

omit [LinearOrder κ] in
theorem filter_isWritten_true (entry : Option (BucketEntry κ ν)) :
    entry.filter (isWritten true) = entry := by
  cases entry with
  | none => rfl
  | some entry => rfl

theorem entries_merge (oldSorted : StrictlySorted oldBucket) (newSorted : StrictlySorted newBucket)
    (merged : merge maxProtocolVersion oldBucket newBucket [] true = .ok out) :
    entries out = mergeEntries oldBucket newBucket := by
  rw [merge_plain oldSorted newSorted merged]
  exact entries_header_append _ (keyed_mergeEntries oldBucket newBucket)

omit [LinearOrder κ] in
theorem metadata_header_append (protocolVersion : Nat) {bucket : Bucket κ ν}
    (keyed : ∀ entry ∈ bucket, entry.key? ≠ none) :
    metadata (header protocolVersion ++ bucket) =
      if FIRST_PROTOCOL_SUPPORTING_INITENTRY_AND_METAENTRY ≤ protocolVersion then protocolVersion
      else 0 := by
  unfold header
  split
  · rfl
  · cases bucket with
    | nil => rfl
    | cons entry rest => exact metadata_keyed (keyed entry List.mem_cons_self) rest

omit [LinearOrder κ] in
theorem legal_header_append {protocolVersion : Nat} {entries : Bucket κ ν}
    (keyed : ∀ entry ∈ entries, entry.key? ≠ none)
    (supported : ∀ entry ∈ entries, Supported protocolVersion entry) :
    Legal (header protocolVersion ++ entries) := by
  intro entry member created
  rw [metadata_header_append _ keyed]
  rcases List.mem_append.mp member with inHeader | inEntries
  · unfold header at inHeader
    split at inHeader
    · rw [List.mem_singleton.mp inHeader] at created
      cases created
    · cases inHeader
  · have atLeast := supported entry inEntries created
    rw [if_pos atLeast]
    exact atLeast

theorem supported_mergeEntries (oldLegal : Legal oldBucket) (newLegal : Legal newBucket) :
    ∀ entry ∈ mergeEntries oldBucket newBucket,
      Supported (max (metadata oldBucket) (metadata newBucket)) entry := by
  apply Merging.supported_merge
  · intro entry member created
    exact (oldLegal entry (List.mem_of_mem_filter member) created).trans (le_max_left _ _)
  · intro entry member created
    exact (newLegal entry (List.mem_of_mem_filter member) created).trans (le_max_right _ _)

theorem legal_merge (oldSorted : StrictlySorted oldBucket) (newSorted : StrictlySorted newBucket)
    (oldLegal : Legal oldBucket) (newLegal : Legal newBucket)
    (merged : merge maxProtocolVersion oldBucket newBucket [] true = .ok out) : Legal out := by
  rw [merge_plain oldSorted newSorted merged]
  exact legal_header_append (keyed_mergeEntries oldBucket newBucket)
    (supported_mergeEntries oldLegal newLegal)

end Merged

/-! ### Merges of well-formed buckets do not throw -/

section Lives

variable {first second third oldBucket newBucket : Bucket κ ν}

theorem lookup_of_entries {bucket : Bucket κ ν} (sorted : StrictlySorted bucket)
    {entry : BucketEntry κ ν} (member : entry ∈ entries bucket) {key : κ}
    (isKey : entry.key? = some key) : lookup key bucket = some entry := by
  rw [← lookup_entries sorted, lookup_eq_find]
  have found := sorted.ascending_entries.find_rank member
  have atKey : entry.rank = (key : WithBot κ) := isKey
  rw [atKey] at found
  exact found

theorem follows_of_lookup (oldSorted : StrictlySorted oldBucket) (newSorted : StrictlySorted newBucket)
    (follows : ∀ key old new, lookup key oldBucket = some old → lookup key newBucket = some new →
      new.isInit → old.isDead) :
    ∀ old ∈ entries oldBucket, ∀ new ∈ entries newBucket, old.rank = new.rank →
      new.isInit → old.isDead := by
  intro old inOld new inNew same
  obtain ⟨key, newKey⟩ := Option.ne_none_iff_exists'.mp (keyed_of_mem_entries inNew)
  have oldKey : old.key? = some key := Eq.trans same newKey
  exact follows key old new (lookup_of_entries oldSorted inOld oldKey)
    (lookup_of_entries newSorted inNew newKey)

theorem follows_pair (life : WellFormed [first, second]) :
    ∀ key old new, lookup key first = some old → lookup key second = some new →
      new.isInit → old.isDead := by
  intro key old new inFirst inSecond
  have here := life key
  simp only [lifeOf, List.filterMap_cons, inFirst, inSecond, List.filterMap_nil, Lifecycle] at here
  exact here.1

theorem WellFormed.front (life : WellFormed [first, second, third]) : WellFormed [first, second] := by
  intro key
  have here := life key
  have split : lifeOf key [first, second, third] =
      lifeOf key [first, second] ++ lifeOf key [third] := List.filterMap_append (l := [first, second])
  rw [split] at here
  exact here.of_append_left

theorem WellFormed.back (life : WellFormed [first, second, third]) : WellFormed [second, third] := by
  intro key
  have here := life key
  have split : lifeOf key [first, second, third] =
      lifeOf key [first] ++ lifeOf key [second, third] := List.filterMap_append (l := [first])
  rw [split] at here
  exact here.of_append_right

theorem follows_merged_old (life : WellFormed [first, second, third]) :
    ∀ key old new, join table (lookup key first) (lookup key second) = some old →
      lookup key third = some new → new.isInit → old.isDead := by
  intro key old new joined inThird
  have here := life key
  simp only [lifeOf, List.filterMap_cons, inThird, List.filterMap_nil] at here
  cases inFirst : lookup key first with
  | none =>
      rw [inFirst, SortedMerge.join_none_left] at joined
      simp only [inFirst, joined, Lifecycle] at here
      exact here.1
  | some early =>
      cases inSecond : lookup key second with
      | none =>
          rw [inFirst, inSecond, SortedMerge.join_none_right] at joined
          cases joined
          simp only [inFirst, inSecond, Lifecycle] at here
          exact here.1
      | some middle =>
          simp only [inFirst, inSecond, Lifecycle] at here
          rw [inFirst, inSecond, SortedMerge.join_some] at joined
          intro created
          have dies := here.2.2.1 created
          cases middle <;> cases dies
          cases early <;> cases joined <;> rfl

theorem follows_merged_new (life : WellFormed [first, second, third]) :
    ∀ key old new, lookup key first = some old →
      join table (lookup key second) (lookup key third) = some new → new.isInit → old.isDead := by
  intro key old new inFirst joined
  have here := life key
  simp only [lifeOf, List.filterMap_cons, inFirst, List.filterMap_nil] at here
  cases inSecond : lookup key second with
  | none =>
      rw [inSecond, SortedMerge.join_none_left] at joined
      simp only [inSecond, joined, Lifecycle] at here
      exact here.1
  | some middle =>
      cases inThird : lookup key third with
      | none =>
          rw [inSecond, inThird, SortedMerge.join_none_right] at joined
          cases joined
          simp only [inSecond, inThird, Lifecycle] at here
          exact here.1
      | some late =>
          simp only [inSecond, inThird, Lifecycle] at here
          rw [inSecond, inThird, SortedMerge.join_some] at joined
          intro created
          -- A creation that is left over was that of the middle entry.
          rcases table_init joined created with middleCreated | lateCreated
          · exact here.1 middleCreated
          · have dies := here.2.2.1 lateCreated
            cases middle <;> cases dies
            cases late <;> cases lateCreated
            cases joined
            cases created

end Lives

omit [LinearOrder κ] in
theorem header_max (early late : Nat) :
    (header (max (if FIRST_PROTOCOL_SUPPORTING_INITENTRY_AND_METAENTRY ≤ early then early else 0)
      late) : Bucket κ ν) = header (max early late) := by
  unfold header
  by_cases supported : FIRST_PROTOCOL_SUPPORTING_INITENTRY_AND_METAENTRY ≤ early
  · rw [if_pos supported]
  · rw [if_neg supported]
    by_cases later : FIRST_PROTOCOL_SUPPORTING_INITENTRY_AND_METAENTRY ≤ late
    · have first : max 0 late = late := by omega
      have second : max early late = late := by omega
      rw [first, second]
    · rw [if_neg (by omega), if_neg (by omega)]

omit [LinearOrder κ] in
theorem header_max_right (early late : Nat) :
    (header (max early (if FIRST_PROTOCOL_SUPPORTING_INITENTRY_AND_METAENTRY ≤ late then late else 0)) :
      Bucket κ ν) = header (max early late) := by
  rw [max_comm, header_max, max_comm]

theorem mergeEntries_assoc {first second third : Bucket κ ν} (firstSorted : StrictlySorted first)
    (secondSorted : StrictlySorted second) (thirdSorted : StrictlySorted third)
    (life : WellFormed [first, second, third]) :
    SortedMerge.merge BucketEntry.rank table (mergeEntries first second) (entries third) =
      SortedMerge.merge BucketEntry.rank table (entries first) (mergeEntries second third) := by
  apply SortedMerge.merge_assoc table_keepsRank firstSorted.ascending_entries
    secondSorted.ascending_entries thirdSorted.ascending_entries
  intro place
  have noBot : ∀ bucket : Bucket κ ν, find BucketEntry.rank ⊥ (entries bucket) = none := by
    intro bucket
    apply SortedMerge.find_eq_none.mpr
    intro entry member same
    exact keyed_of_mem_entries member same
  induction place using WithBot.recBotCoe with
  | bot => simp only [noBot, SortedMerge.join_none_left]
  | coe key =>
      simp only [← lookup_eq_find, lookup_entries firstSorted, lookup_entries secondSorted,
        lookup_entries thirdSorted]
      exact lookup_assoc (life key)

/-! ### Merging in any order -/

/-- A merge gives a bucket that is strictly sorted again, with no second entry of a key; without
shadows it looks up what the table has of its inputs; and of three buckets with well-formed lives it
does not matter which two are merged first. -/
theorem merge_keywise {a b c : Bucket κ ν} (aSorted : StrictlySorted a) (bSorted : StrictlySorted b)
    (cSorted : StrictlySorted c) :
    (∀ maxProtocolVersion shadows keepDeadEntries out,
      merge maxProtocolVersion a b shadows keepDeadEntries = .ok out →
        StrictlySorted out ∧ ∀ left ∈ out, ∀ right ∈ out, left.key? = right.key? → left = right) ∧
    (∀ maxProtocolVersion shadows keepDeadEntries, Legal a → Legal b → WellFormed [a, b] →
      (∀ shadow ∈ shadows, StrictlySorted shadow ∧ Legal shadow) →
      mergeVersion a b shadows ≤ maxProtocolVersion →
        ∃ out, merge maxProtocolVersion a b shadows keepDeadEntries = .ok out) ∧
    (∀ maxProtocolVersion keepDeadEntries out,
      merge maxProtocolVersion a b [] keepDeadEntries = .ok out →
        ∀ key, lookup key out =
          (join table (lookup key a) (lookup key b)).filter (isWritten keepDeadEntries)) ∧
    (∀ maxProtocolVersion, Legal a → Legal b → Legal c → WellFormed [a, b, c] →
      metadata a ≤ maxProtocolVersion → metadata b ≤ maxProtocolVersion →
      metadata c ≤ maxProtocolVersion →
        ∃ ab bc out, merge maxProtocolVersion a b [] true = .ok ab ∧
          merge maxProtocolVersion b c [] true = .ok bc ∧
          merge maxProtocolVersion ab c [] true = .ok out ∧
          merge maxProtocolVersion a bc [] true = .ok out) := by
  refine ⟨?_, ?_, ?_, ?_⟩
  · intro maxProtocolVersion shadows keepDeadEntries out merged
    have sorted := merge_sorted aSorted bSorted merged
    exact ⟨sorted, fun left inLeft right inRight same => sorted.unique inLeft inRight same⟩
  · intro maxProtocolVersion shadows keepDeadEntries aLegal bLegal life readable within
    exact merge_ok aSorted bSorted aLegal bLegal
      (follows_of_lookup aSorted bSorted (follows_pair life)) readable within keepDeadEntries
  · intro maxProtocolVersion keepDeadEntries out merged key
    exact lookup_merge aSorted bSorted merged key
  · intro maxProtocolVersion aLegal bLegal cLegal life aWithin bWithin cWithin
    obtain ⟨ab, mergedAb⟩ := merge_ok aSorted bSorted aLegal bLegal
      (follows_of_lookup aSorted bSorted (follows_pair life.front))
      noShadows (max_le aWithin bWithin) true
    obtain ⟨bc, mergedBc⟩ := merge_ok bSorted cSorted bLegal cLegal
      (follows_of_lookup bSorted cSorted (follows_pair life.back))
      noShadows (max_le bWithin cWithin) true
    have abSorted := merge_sorted aSorted bSorted mergedAb
    have bcSorted := merge_sorted bSorted cSorted mergedBc
    have abFollows : ∀ key old new, lookup key ab = some old → lookup key c = some new →
        new.isInit → old.isDead := by
      intro key old new inAb
      rw [lookup_merge aSorted bSorted mergedAb, filter_isWritten_true] at inAb
      exact follows_merged_old life key old new inAb
    have bcFollows : ∀ key old new, lookup key a = some old → lookup key bc = some new →
        new.isInit → old.isDead := by
      intro key old new inA inBc
      rw [lookup_merge bSorted cSorted mergedBc, filter_isWritten_true] at inBc
      exact follows_merged_new life key old new inA inBc
    obtain ⟨early, mergedEarly⟩ := merge_ok abSorted cSorted
      (legal_merge aSorted bSorted aLegal bLegal mergedAb) cLegal
      (follows_of_lookup abSorted cSorted abFollows)
      noShadows (max_le (merge_metadata mergedAb) cWithin) true
    obtain ⟨late, mergedLate⟩ := merge_ok aSorted bcSorted aLegal
      (legal_merge bSorted cSorted bLegal cLegal mergedBc)
      (follows_of_lookup aSorted bcSorted bcFollows)
      noShadows (max_le aWithin (merge_metadata mergedBc)) true
    have same : early = late := by
      rw [merge_plain abSorted cSorted mergedEarly, merge_plain aSorted bcSorted mergedLate]
      unfold mergeEntries
      rw [entries_merge aSorted bSorted mergedAb, entries_merge bSorted cSorted mergedBc,
        mergeEntries_assoc aSorted bSorted cSorted life, merge_plain aSorted bSorted mergedAb,
        merge_plain bSorted cSorted mergedBc,
        metadata_header_append _ (keyed_mergeEntries a b),
        metadata_header_append _ (keyed_mergeEntries b c), header_max, header_max_right,
        max_assoc]
    rw [← same] at mergedLate
    exact ⟨ab, bc, early, mergedAb, mergedBc, mergedEarly, mergedLate⟩

/-! ### An account that is created, changed and removed -/

def creates : Bucket (LedgerKey Nat Nat Nat) Nat := [.METAENTRY 11, .INITENTRY (.ACCOUNT 1) 5]

def changes : Bucket (LedgerKey Nat Nat Nat) Nat :=
  [.METAENTRY 11, .LIVEENTRY (.ACCOUNT 1) 6, .INITENTRY (.OFFER 1 7) 0]

def removes : Bucket (LedgerKey Nat Nat Nat) Nat := [.METAENTRY 12, .DEADENTRY (.ACCOUNT 1)]

theorem account_life : WellFormed [creates, changes, removes] := by
  intro key
  by_cases account : key = .ACCOUNT 1
  · rw [account]
    exact ⟨fun impossible => absurd impossible Bool.false_ne_true,
      fun impossible => absurd impossible Bool.false_ne_true,
      fun impossible => absurd impossible Bool.false_ne_true,
      fun _ impossible => absurd impossible Bool.false_ne_true, trivial⟩
  · have other : (LedgerKey.ACCOUNT 1 : LedgerKey Nat Nat Nat) ≠ key := fun same => account same.symm
    by_cases offer : (LedgerKey.OFFER 1 7 : LedgerKey Nat Nat Nat) = key <;>
      simp [lifeOf, lookup, creates, changes, removes, BucketEntry.key?, other, offer, Lifecycle]

theorem merge_keywise_account :
    ∃ ab bc out, merge 12 creates changes [] true = .ok ab ∧ merge 12 changes removes [] true = .ok bc ∧
      merge 12 ab removes [] true = .ok out ∧ merge 12 creates bc [] true = .ok out := by
  have legal : ∀ bucket ∈ [creates, changes, removes], Legal bucket := by
    intro bucket among entry _ _
    simp only [List.mem_cons, List.not_mem_nil, or_false] at among
    rcases among with rfl | rfl | rfl <;> decide
  apply (@merge_keywise _ _ _ creates changes removes (by decide +kernel) (by decide +kernel)
    (by decide +kernel)).2.2.2 12 (legal creates (by simp)) (legal changes (by simp))
      (legal removes (by simp)) account_life <;> decide

end ViiCore.Bucket
