import ViiCore.Bucket.BucketState

/-!
The buckets of batches.

A batch whose entries have different keys becomes a bucket that changes the state as the batch
does. A list that is fed with batches that create only what there is not has the state of the
ledger, whatever the protocol versions they were made with.
-/

namespace ViiCore.Bucket

open SortedMerge (Ascending)

variable {κ ν : Type} [LinearOrder κ]

/-! ### Batches -/

namespace Batch

omit [LinearOrder κ] in
def keys (batch : Batch κ ν) : List κ :=
  batch.initEntries.map Prod.fst ++ batch.liveEntries.map Prod.fst ++ batch.deadEntries

def apply (state : κ → Option ν) (batch : Batch κ ν) : κ → Option ν := fun key =>
  match (batch.initEntries ++ batch.liveEntries).find? fun entry => entry.1 = key with
  | some (_, entry) => some entry
  | none => if batch.deadEntries.contains key then none else state key

omit [LinearOrder κ] in
def unsorted (batch : Batch κ ν) : List (BucketEntry κ ν) :=
  batch.initEntries.map (fun (key, entry) =>
    if batch.currLedgerProtocol ≥ FIRST_PROTOCOL_SUPPORTING_INITENTRY_AND_METAENTRY then
      .INITENTRY key entry else .LIVEENTRY key entry) ++
  batch.liveEntries.map (fun (key, entry) => .LIVEENTRY key entry) ++
  batch.deadEntries.map .DEADENTRY

end Batch

/-- The batch of a ledger on its state: no key twice, and only what there is not is created. -/
structure WellFormedBatch (state : κ → Option ν) (batch : Batch κ ν) : Prop where
  distinct : batch.keys.Nodup
  created : ∀ entry ∈ batch.initEntries, state entry.1 = none

variable {batch : Batch κ ν}

omit [LinearOrder κ] in
theorem unsorted_keys : batch.unsorted.map BucketEntry.key? = batch.keys.map some := by
  have inits : batch.initEntries.map (BucketEntry.key? ∘ fun (key, entry) =>
      if batch.currLedgerProtocol ≥ FIRST_PROTOCOL_SUPPORTING_INITENTRY_AND_METAENTRY then
        BucketEntry.INITENTRY key entry else .LIVEENTRY key entry) =
      batch.initEntries.map (some ∘ Prod.fst) := by
    apply List.map_congr_left
    rintro ⟨key, entry⟩ -
    dsimp only [Function.comp]
    split <;> rfl
  unfold Batch.unsorted Batch.keys
  simp only [List.map_append, List.map_map, inits]
  rfl

omit [LinearOrder κ] in
theorem mem_unsorted {entry : BucketEntry κ ν} (member : entry ∈ batch.unsorted) :
    (∃ key value, (key, value) ∈ batch.initEntries ∧ entry.key? = some key ∧
      settled (fun _ value => value) entry = some value ∧
        (entry.isInit →
          FIRST_PROTOCOL_SUPPORTING_INITENTRY_AND_METAENTRY ≤ batch.currLedgerProtocol)) ∨
    (∃ key value, (key, value) ∈ batch.liveEntries ∧ entry = .LIVEENTRY key value) ∨
    ∃ key ∈ batch.deadEntries, entry = .DEADENTRY key := by
  unfold Batch.unsorted at member
  rcases List.mem_append.mp member with upserted | dead
  · rcases List.mem_append.mp upserted with created | live
    · obtain ⟨⟨key, value⟩, has, rfl⟩ := List.mem_map.mp created
      left
      refine ⟨key, value, has, ?_⟩
      dsimp only
      split
      · rename_i supported
        exact ⟨rfl, rfl, fun _ => supported⟩
      · exact ⟨rfl, rfl, fun impossible => (by cases impossible)⟩
    · obtain ⟨⟨key, value⟩, has, rfl⟩ := List.mem_map.mp live
      exact .inr (.inl ⟨key, value, has, rfl⟩)
  · obtain ⟨key, has, rfl⟩ := List.mem_map.mp dead
    exact .inr (.inr ⟨key, has, rfl⟩)

/-! ### Fresh buckets -/

theorem cmp_byKey :
    (BucketEntryIdCmp : BucketEntry κ ν → BucketEntry κ ν → Bool) =
      Sorting.byKey BucketEntry.rank := by
  funext left right
  apply Bool.eq_iff_iff.mpr
  rw [cmp_iff, Sorting.byKey, decide_eq_true_eq]

theorem putAll_wrote {out : BucketOutputIterator κ ν} {entries : Bucket κ ν}
    (keeps : out.mKeepDeadEntries = true)
    (keyed : ∀ entry ∈ entries, entry.key? ≠ none ∧ Supported out.mMeta entry)
    (ascending : Ascending BucketEntry.rank (out.getBucket ++ entries)) :
    ∃ after, putAll out entries = .ok after ∧ Wrote out entries after := by
  induction entries generalizing out with
  | nil => exact ⟨out, rfl, Wrote.nothing out⟩
  | cons entry rest ih =>
      obtain ⟨⟨isKeyed, supported⟩, others⟩ := List.forall_mem_cons.mp keyed
      rw [← List.singleton_append, ← List.append_assoc] at ascending
      have first : Ascending BucketEntry.rank (out.getBucket ++ [entry]) :=
        ascending.sublist (List.sublist_append_left _ _)
      obtain ⟨next, put⟩ := put_ok isKeyed supported first
      have wrote := put_wrote isKeyed first put
      have whole : [entry].filter (isWritten out.mKeepDeadEntries) = [entry] := by
        rw [keeps]
        rfl
      rw [whole] at wrote
      rw [← wrote.bucket] at ascending
      obtain ⟨after, ran, wroteRest⟩ := ih (wrote.keep.trans keeps)
        (by rw [wrote.version]; exact others) ascending
      refine ⟨after, ?_, wrote.trans wroteRest⟩
      unfold putAll
      rw [put]
      exact ran

structure FreshOf (batch : Batch κ ν) (bucket : Bucket κ ν) : Prop where
  sorted : StrictlySorted bucket
  legal : Legal bucket
  mem : ∀ entry, entry ∈ entries bucket ↔ entry ∈ batch.unsorted

theorem fresh_ok (distinct : batch.keys.Nodup) :
    ∃ bucket, fresh batch = .ok bucket ∧ FreshOf batch bucket := by
  have permuted := (Sorting.stableSorter (BucketEntry κ ν)).perm BucketEntryIdCmp batch.unsorted
  have ordered := (Sorting.stableSorter (BucketEntry κ ν)).sorted_byKey BucketEntry.rank batch.unsorted
  rw [← cmp_byKey] at ordered
  generalize sortedIs : (Sorting.stableSorter (BucketEntry κ ν)).sort BucketEntryIdCmp
    batch.unsorted = sorted at permuted ordered
  have different : sorted.Pairwise fun left right => left.rank ≠ right.rank := by
    have keys : (sorted.map BucketEntry.key?).Nodup := by
      rw [(permuted.map _).nodup_iff, unsorted_keys]
      exact distinct.map (Option.some_injective _)
    exact List.pairwise_map.mp keys
  have ascending : Ascending BucketEntry.rank sorted :=
    (ordered.and different).imp fun both => lt_of_le_of_ne both.1 both.2
  have isChain : sorted.IsChain fun left right => BucketEntryIdCmp left right = true :=
    (strictlySorted_iff.mpr ascending).isChain
  have keyed : ∀ entry ∈ sorted, entry.key? ≠ none ∧ Supported batch.currLedgerProtocol entry := by
    intro entry member
    rcases mem_unsorted (permuted.mem_iff.mp member) with
      ⟨key, value, -, isKey, -, supported⟩ | ⟨key, value, -, rfl⟩ | ⟨key, -, rfl⟩
    · exact ⟨by rw [isKey]; exact Option.some_ne_none _, supported⟩
    · exact ⟨Option.some_ne_none _, fun impossible => (by cases impossible)⟩
    · exact ⟨Option.some_ne_none _, fun impossible => (by cases impossible)⟩
  obtain ⟨out, created, begins, keeps, version⟩ :=
    create_wrote (κ := κ) (ν := ν) true batch.currLedgerProtocol
  have whole := ascending_header_append batch.currLedgerProtocol
    (fun entry member => (keyed entry member).1) ascending
  rw [← begins] at whole
  rw [← version] at keyed
  obtain ⟨after, put, wrote⟩ := putAll_wrote keeps keyed whole
  have bucketIs : after.getBucket = header batch.currLedgerProtocol ++ sorted := by
    rw [wrote.bucket, begins]
  have converted : convertToBucketEntry
      (batch.currLedgerProtocol ≥ FIRST_PROTOCOL_SUPPORTING_INITENTRY_AND_METAENTRY) batch =
        .ok sorted := by
    unfold convertToBucketEntry
    simp only [decide_eq_true_eq]
    change (do
      assertThat (((Sorting.stableSorter (BucketEntry κ ν)).sort BucketEntryIdCmp
        batch.unsorted).IsChain fun left right => BucketEntryIdCmp left right) "adjacent_find"
      return (Sorting.stableSorter (BucketEntry κ ν)).sort BucketEntryIdCmp batch.unsorted) = _
    rw [sortedIs]
    exact assertThat_bind_ok.mpr ⟨decide_eq_true isChain, rfl⟩
  refine ⟨after.getBucket, ?_, ?_, ?_, ?_⟩
  · unfold fresh
    dsimp only
    rw [converted, created]
    simp only [bind, Except.bind, put]
    rfl
  · rw [bucketIs, strictlySorted_iff, ← begins]
    exact whole
  · rw [bucketIs]
    rw [version] at keyed
    exact legal_header_append (fun entry member => (keyed entry member).1)
      fun entry member => (keyed entry member).2
  · intro entry
    rw [bucketIs, entries_header_append _ fun entry member => (keyed entry member).1]
    exact permuted.mem_iff

theorem FreshOf.lookup_iff {bucket : Bucket κ ν} (made : FreshOf batch bucket) {key : κ}
    {entry : BucketEntry κ ν} :
    lookup key bucket = some entry ↔ entry ∈ batch.unsorted ∧ entry.key? = some key := by
  constructor
  · intro found
    refine ⟨?_, lookup_key found⟩
    rw [← lookup_entries made.sorted] at found
    exact (made.mem entry).mp (List.mem_of_find?_eq_some found)
  · rintro ⟨member, isKey⟩
    exact lookup_of_entries made.sorted ((made.mem entry).mpr member) isKey

theorem FreshOf.overlay_eq {bucket : Bucket κ ν} (made : FreshOf batch bucket)
    (state : κ → Option ν) : overlay (fun _ value => value) state bucket = batch.apply state := by
  funext key
  unfold Batch.apply
  cases upserted : (batch.initEntries ++ batch.liveEntries).find? fun entry => entry.1 = key with
  | some pair =>
      obtain ⟨place, value⟩ := pair
      have same : place = key := by simpa using List.find?_some upserted
      subst same
      have whole : ∃ entry ∈ batch.unsorted, entry.key? = some place ∧
          settled (fun _ value => value) entry = some value := by
        unfold Batch.unsorted
        rcases List.mem_append.mp (List.mem_of_find?_eq_some upserted) with created | live
        · refine ⟨_, List.mem_append_left _ (List.mem_append_left _
            (List.mem_map_of_mem created)), ?_⟩
          dsimp only
          split <;> exact ⟨rfl, rfl⟩
        · exact ⟨_, List.mem_append_left _ (List.mem_append_right _
            (List.mem_map_of_mem live)), rfl, rfl⟩
      obtain ⟨entry, member, isKey, same⟩ := whole
      exact (overlay_found (made.lookup_iff.mpr ⟨member, isKey⟩) _).trans same
  | none =>
      have notUpserted : ∀ pair ∈ batch.initEntries ++ batch.liveEntries, pair.1 ≠ key := by
        intro pair member same
        exact List.find?_eq_none.mp upserted pair member (decide_eq_true same)
      by_cases dead : key ∈ batch.deadEntries
      · have member : BucketEntry.DEADENTRY key ∈ batch.unsorted :=
          List.mem_append_right _ (List.mem_map_of_mem dead)
        rw [overlay_found (made.lookup_iff.mpr ⟨member, rfl⟩),
          if_pos (List.contains_iff_mem.mpr dead)]
        rfl
      · have absent : lookup key bucket = none := by
          by_contra has
          obtain ⟨entry, found⟩ := Option.ne_none_iff_exists'.mp has
          obtain ⟨member, isKey⟩ := made.lookup_iff.mp found
          rcases mem_unsorted member with
            ⟨place, value, created, isPlace, -, -⟩ | ⟨place, value, live, rfl⟩ | ⟨place, gone, rfl⟩
          · rw [isPlace] at isKey
            exact notUpserted _ (List.mem_append_left _ created) (Option.some.inj isKey)
          · exact notUpserted _ (List.mem_append_right _ live) (Option.some.inj isKey)
          · exact dead (Option.some.inj isKey ▸ gone)
        rw [overlay_absent absent, if_neg (mt List.contains_iff_mem.mp dead)]

theorem FreshOf.created {bucket : Bucket κ ν} (made : FreshOf batch bucket) {key : κ}
    {entry : BucketEntry κ ν} (found : lookup key bucket = some entry) (isInit : entry.isInit) :
    ∃ value, (key, value) ∈ batch.initEntries := by
  obtain ⟨member, isKey⟩ := made.lookup_iff.mp found
  rcases mem_unsorted member with
    ⟨place, value, created, isPlace, -, -⟩ | ⟨place, value, -, rfl⟩ | ⟨place, -, rfl⟩
  · rw [isPlace] at isKey
    cases isKey
    exact ⟨value, created⟩
  · cases isInit
  · cases isInit

/-! ### The ledger -/

def ledgerState (batches : Nat → Batch κ ν) : Nat → κ → Option ν
  | 0 => fun _ => none
  | ledger + 1 => (batches (ledger + 1)).apply (ledgerState batches ledger)

def freshBucket (batch : Batch κ ν) : Bucket κ ν := (fresh batch).toOption.getD []

section Ledger

variable {batches : Nat → Batch κ ν} {last : Nat}

theorem freshBucket_made {ledger : Nat}
    (wellFormed : WellFormedBatch (ledgerState batches ledger) (batches (ledger + 1))) :
    fresh (batches (ledger + 1)) = .ok (freshBucket (batches (ledger + 1))) ∧
      FreshOf (batches (ledger + 1)) (freshBucket (batches (ledger + 1))) := by
  obtain ⟨bucket, ran, made⟩ := fresh_ok wellFormed.distinct
  have same : freshBucket (batches (ledger + 1)) = bucket := by
    unfold freshBucket
    rw [ran]
    rfl
  rw [same]
  exact ⟨ran, made⟩

variable (wellFormed : ∀ ledger, ledger < last →
  WellFormedBatch (ledgerState batches ledger) (batches (ledger + 1)))

include wellFormed

theorem stateAt_ledgerState {ledger : Nat} (within : ledger ≤ last) :
    stateAt (fun _ value => value) (fun ledger => freshBucket (batches ledger)) ledger =
      ledgerState batches ledger := by
  induction ledger with
  | zero => rfl
  | succ ledger ih =>
      unfold stateAt ledgerState
      rw [ih (by omega)]
      exact (freshBucket_made (wellFormed ledger within)).2.overlay_eq _

theorem batches_fed
    (monotone : ∀ early late, early ≤ late → late ≤ last →
      (batches early).currLedgerProtocol ≤ (batches late).currLedgerProtocol) :
    Fed (fun _ value => value) (fun ledger => freshBucket (batches ledger))
      (fun ledger => (batches ledger).currLedgerProtocol) last where
  sorted ledger within := (freshBucket_made (wellFormed ledger within)).2.sorted
  legal ledger within := (freshBucket_made (wellFormed ledger within)).2.legal
  version ledger within := fresh_metadata (freshBucket_made (wellFormed ledger within)).1
  monotone := monotone
  created ledger within key entry found isInit := by
    have formed := wellFormed ledger within
    obtain ⟨value, created⟩ := (freshBucket_made formed).2.created found isInit
    rw [stateAt_ledgerState wellFormed (by omega)]
    exact formed.created _ created

end Ledger

/-- No fresh bucket and no merge throws, and after the batches the first bucket with an entry for a
key, from the newest one on, has what the batches made of the key; applied oldest first the buckets
make the same state. -/
theorem addBatches_ledgerState (batches : Nat → Batch κ ν) (last : Nat) (bound : last < 2 ^ 32)
    (monotone : ∀ early late, early ≤ late → late ≤ last →
      (batches early).currLedgerProtocol ≤ (batches late).currLedgerProtocol)
    (wellFormed : ∀ ledger, ledger < last →
      WellFormedBatch (ledgerState batches ledger) (batches (ledger + 1))) :
    (∀ ledger, ledger < last →
      fresh (batches (ledger + 1)) = .ok (freshBucket (batches (ledger + 1)))) ∧
    ∃ list, BucketList.addBatches (bucketMerger κ ν)
        (fun ledger => (batches ledger).currLedgerProtocol)
        (fun ledger => freshBucket (batches ledger)) last = some list ∧
      (∀ key, (newestEntry key (list.shadows kNumLevels)).bind (settled fun _ value => value) =
        ledgerState batches last key) ∧
      stateOf (fun _ value => value) (fun _ => none) (list.shadows kNumLevels).reverse =
        ledgerState batches last := by
  obtain ⟨list, ran, newest⟩ := addBatches_state (batches_fed wellFormed monotone) bound
  have state (key : κ) := (newest key).trans
    (congrFun (stateAt_ledgerState wellFormed le_rfl) key)
  refine ⟨fun ledger within => (freshBucket_made (wellFormed ledger within)).1, list, ran, state, ?_⟩
  funext key
  exact (stateOf_newestEntry _ key).trans (state key)

/-- A key is created before there are INIT entries, and changed and removed afterwards. -/
def acrossVersions : Nat → Batch Nat Nat
  | 1 => ⟨10, [(1, 5)], [], []⟩
  | 2 => ⟨11, [(2, 7)], [(1, 6)], []⟩
  | 3 => ⟨12, [], [], [1]⟩
  | _ => ⟨0, [], [], []⟩

theorem acrossVersions_formed (ledger : Nat) (within : ledger < 3) :
    WellFormedBatch (ledgerState acrossVersions ledger) (acrossVersions (ledger + 1)) := by
  constructor
  · revert ledger
    decide
  · intro entry member
    obtain rfl | rfl | rfl : ledger = 0 ∨ ledger = 1 ∨ ledger = 2 := by omega
    · rfl
    · obtain rfl : entry = (2, 7) := List.mem_singleton.mp member
      rfl
    · cases member

theorem addBatches_ledgerState_three :
    (∀ ledger, ledger < 3 → fresh (acrossVersions (ledger + 1)) =
      .ok (freshBucket (acrossVersions (ledger + 1)))) ∧
    ∃ list, BucketList.addBatches (bucketMerger Nat Nat)
        (fun ledger => (acrossVersions ledger).currLedgerProtocol)
        (fun ledger => freshBucket (acrossVersions ledger)) 3 = some list ∧
      (∀ key, (newestEntry key (list.shadows kNumLevels)).bind (settled fun _ value => value) =
        ledgerState acrossVersions 3 key) ∧
      stateOf (fun _ value => value) (fun _ => none) (list.shadows kNumLevels).reverse =
        ledgerState acrossVersions 3 := by
  apply addBatches_ledgerState acrossVersions 3 (by decide)
  · intro early late before within
    have inner : ∀ late, late ≤ 3 → ∀ early, early ≤ late →
        (acrossVersions early).currLedgerProtocol ≤ (acrossVersions late).currLedgerProtocol := by
      decide
    exact inner late within early before
  · exact acrossVersions_formed

end ViiCore.Bucket
