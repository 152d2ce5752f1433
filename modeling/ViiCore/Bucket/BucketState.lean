import ViiCore.Bucket.CoveredLevels
import ViiCore.Bucket.Overlay
import ViiCore.Bucket.RestartMerges
import ViiCore.Bucket.ShadowedMerge

/-!
The bucket list has the state of the ledger.

What the bucket of some ledgers has of a key tells how the batches of these ledgers change the key,
but only as long as that matters: not once a later batch changes the key without creating it anew.
An entry that is hidden by a shadow, or a stale value below one, never matters any more.
-/

namespace ViiCore.Bucket

open SortedMerge (Ascending join)

variable {κ ν α : Type} [LinearOrder κ]

section Telling

variable (ofEntry : κ → ν → α) (batch : Nat → Bucket κ ν) (last : Nat)

def stateAt : Nat → κ → Option α
  | 0 => fun _ => none
  | ledger + 1 => overlay ofEntry (stateAt ledger) (batch (ledger + 1))

/-- The next batch that changes the key, if there is any, creates it. -/
def Settles (key : κ) (ledger : Nat) : Prop :=
  ∀ next entry, ledger < next → next ≤ last → lookup key (batch next) = some entry →
    (∀ between, ledger < between → between < next → lookup key (batch between) = none) →
      entry.isInit

/-- The state of the key before a ledger matters, unless there are no ledgers before. -/
def Matters (key : κ) (ledger : Nat) : Prop := ledger = 0 ∨ Settles batch last key ledger

/-- What an entry for a key, or that there is none, tells of the batches of some ledgers. -/
structure Tells (oldest newest : Nat) (key : κ) (entry : Option (BucketEntry κ ν)) : Prop where
  made : entry ≠ none → ∃ ledger, oldest < ledger ∧ ledger ≤ newest ∧ lookup key (batch ledger) ≠ none
  born : ∀ found, entry = some found → found.isInit →
    Matters batch last key oldest ∧ stateAt ofEntry batch oldest key = none
  present : Settles batch last key newest → ∀ found, entry = some found →
    stateAt ofEntry batch newest key = settled ofEntry found
  absent : Settles batch last key newest → entry = none →
    stateAt ofEntry batch newest key = stateAt ofEntry batch oldest key ∧
      Matters batch last key oldest

variable {ofEntry batch last} {oldest middle newest : Nat} {key : κ}

theorem stateAt_quiet (order : oldest ≤ newest)
    (quiet : ∀ ledger, oldest < ledger → ledger ≤ newest → lookup key (batch ledger) = none) :
    stateAt ofEntry batch newest key = stateAt ofEntry batch oldest key := by
  induction newest with
  | zero =>
      obtain rfl : oldest = 0 := Nat.le_zero.mp order
      rfl
  | succ newest ih =>
      rcases Nat.lt_or_eq_of_le order with below | same
      · have still := ih (by omega) fun ledger above within => quiet ledger above (by omega)
        exact (overlay_absent (quiet (newest + 1) below le_rfl) _).trans still
      · rw [same]

omit [LinearOrder κ] in
theorem first_within {P : Nat → Prop} {ledger : Nat} (above : oldest < ledger) (holds : P ledger) :
    ∃ first, oldest < first ∧ first ≤ ledger ∧ P first ∧
      ∀ between, oldest < between → between < first → ¬ P between := by
  classical
  have exists_ : ∃ first, oldest < first ∧ P first := ⟨ledger, above, holds⟩
  refine ⟨Nat.find exists_, (Nat.find_spec exists_).1, Nat.find_min' exists_ ⟨above, holds⟩,
    (Nat.find_spec exists_).2, ?_⟩
  intro between after before has
  exact Nat.find_min exists_ before ⟨after, has⟩

/-- What the batches must be like: in order, readable, not newer than their ledger, and creating
only what there is not. -/
structure Fed (ofEntry : κ → ν → α) (batch : Nat → Bucket κ ν) (protocol : Nat → Nat) (last : Nat) :
    Prop where
  sorted : ∀ ledger, ledger < last → StrictlySorted (batch (ledger + 1))
  legal : ∀ ledger, ledger < last → Legal (batch (ledger + 1))
  version : ∀ ledger, ledger < last → metadata (batch (ledger + 1)) ≤ protocol (ledger + 1)
  monotone : ∀ early late, early ≤ late → late ≤ last → protocol early ≤ protocol late
  created : ∀ ledger, ledger < last → ∀ key entry, lookup key (batch (ledger + 1)) = some entry →
    entry.isInit → stateAt ofEntry batch ledger key = none

variable {protocol : Nat → Nat} (fed : Fed ofEntry batch protocol last)

include fed in
theorem Settles.first (settles : Settles batch last key newest) {ledger : Nat}
    (above : newest < ledger) (within : ledger ≤ last) (changed : lookup key (batch ledger) ≠ none) :
    stateAt ofEntry batch newest key = none ∧ ∃ first entry, newest < first ∧ first ≤ ledger ∧
      lookup key (batch first) = some entry ∧ entry.isInit ∧
        ∀ between, newest < between → between < first → lookup key (batch between) = none := by
  obtain ⟨first, after, before, has, least⟩ := first_within
    (P := fun ledger => lookup key (batch ledger) ≠ none) above changed
  obtain ⟨entry, found⟩ := Option.ne_none_iff_exists'.mp has
  have quiet (between : Nat) (later : newest < between) (earlier : between < first) :
      lookup key (batch between) = none := not_not.mp (least between later earlier)
  have created := settles first entry after (before.trans within) found quiet
  obtain ⟨previous, rfl⟩ : ∃ previous, first = previous + 1 := ⟨first - 1, by omega⟩
  have gone := fed.created previous (by omega) key entry found created
  rw [stateAt_quiet (Nat.le_of_lt_succ after)
    fun between later within => quiet between later (Nat.lt_succ_of_le within)] at gone
  exact ⟨gone, previous + 1, entry, after, before, found, created, quiet⟩

theorem Settles.quiet (settles : Settles batch last key newest) (order : oldest ≤ newest)
    (quiet : ∀ ledger, oldest < ledger → ledger ≤ newest → lookup key (batch ledger) = none) :
    Settles batch last key oldest := by
  intro next entry above within found least
  rcases Nat.lt_or_ge newest next with after | early
  · apply settles next entry after within found
    intro between later before
    exact least between (by omega) before
  · rw [quiet next above early] at found
    cases found

theorem settles_last : Settles batch last key last := fun next entry above within =>
  absurd within (by omega)

/-! ### What merges keep -/

omit [LinearOrder κ] in
theorem settled_none {entry : BucketEntry κ ν} (keyed : entry.key? ≠ none)
    (gone : settled ofEntry entry = none) : entry.isDead := by
  cases entry with
  | METAENTRY ledgerVersion => exact absurd rfl keyed
  | LIVEENTRY key value => cases gone
  | DEADENTRY key => rfl
  | INITENTRY key value => cases gone

section Tell

variable {old new : Option (BucketEntry κ ν)} {entry : BucketEntry κ ν}

theorem Tells.settles_of_matters (tells : Tells ofEntry batch last oldest newest key (some entry))
    (matter : Matters batch last key newest) : Settles batch last key newest := by
  rcases matter with zero | settles
  · obtain ⟨ledger, above, within, -⟩ := tells.made (Option.some_ne_none _)
    omega
  · exact settles

theorem Tells.follows {oldEntry newEntry : BucketEntry κ ν} (keyed : oldEntry.key? ≠ none)
    (older : Tells ofEntry batch last oldest middle key (some oldEntry))
    (newer : Tells ofEntry batch last middle newest key (some newEntry))
    (created : newEntry.isInit) : oldEntry.isDead := by
  obtain ⟨matter, gone⟩ := newer.born newEntry rfl created
  have told := older.present (older.settles_of_matters matter) oldEntry rfl
  rw [gone] at told
  exact settled_none keyed told.symm

theorem tells_none (absent : Settles batch last key newest →
    stateAt ofEntry batch newest key = stateAt ofEntry batch oldest key ∧
      Matters batch last key oldest) : Tells ofEntry batch last oldest newest key none where
  made impossible := absurd rfl impossible
  born _ impossible := absurd impossible (Option.some_ne_none _).symm
  present _ _ impossible := absurd impossible (Option.some_ne_none _).symm
  absent settles _ := absent settles

theorem Tells.across_none (order : oldest ≤ middle)
    (older : Tells ofEntry batch last oldest middle key none)
    (newer : Tells ofEntry batch last middle newest key none) :
    Tells ofEntry batch last oldest newest key none := by
  apply tells_none
  intro settles
  obtain ⟨same, zero | before⟩ := newer.absent settles rfl
  · have bottom : oldest = middle := by omega
    rw [bottom]
    exact ⟨same, .inl zero⟩
  · obtain ⟨sameBefore, matter⟩ := older.absent before rfl
    exact ⟨same.trans sameBefore, matter⟩

theorem Tells.across_old (order : middle ≤ newest)
    (older : Tells ofEntry batch last oldest middle key (some entry))
    (newer : Tells ofEntry batch last middle newest key none) :
    Tells ofEntry batch last oldest newest key (some entry) where
  made has := by
    obtain ⟨ledger, above, within, changed⟩ := older.made has
    exact ⟨ledger, above, within.trans order, changed⟩
  born := older.born
  present settles found same := by
    obtain ⟨stays, matter⟩ := newer.absent settles rfl
    rw [stays]
    exact older.present (older.settles_of_matters matter) found same
  absent _ impossible := absurd impossible (Option.some_ne_none _)

theorem Tells.across_new (order : oldest ≤ middle)
    (older : Tells ofEntry batch last oldest middle key none)
    (newer : Tells ofEntry batch last middle newest key (some entry)) :
    Tells ofEntry batch last oldest newest key (some entry) where
  made has := by
    obtain ⟨ledger, above, within, changed⟩ := newer.made has
    exact ⟨ledger, order.trans_lt above, within, changed⟩
  born found same created := by
    obtain ⟨matter, gone⟩ := newer.born found same created
    rcases matter with zero | settles
    · have bottom : oldest = 0 := by omega
      rw [bottom]
      exact ⟨.inl rfl, rfl⟩
    · obtain ⟨stays, before⟩ := older.absent settles rfl
      exact ⟨before, stays ▸ gone⟩
  present := newer.present
  absent _ impossible := absurd impossible (Option.some_ne_none _)

theorem Tells.across_both {oldEntry newEntry : BucketEntry κ ν} (oldKeyed : oldEntry.key? ≠ none)
    (newKeyed : newEntry.key? ≠ none) (order : oldest ≤ middle)
    (older : Tells ofEntry batch last oldest middle key (some oldEntry))
    (newer : Tells ofEntry batch last middle newest key (some newEntry)) :
    Tells ofEntry batch last oldest newest key (table oldEntry newEntry) := by
  have changed : ∃ ledger, oldest < ledger ∧ ledger ≤ newest ∧ lookup key (batch ledger) ≠ none := by
    obtain ⟨ledger, above, within, has⟩ := newer.made (Option.some_ne_none _)
    exact ⟨ledger, order.trans_lt above, within, has⟩
  -- an entry that ends like the newer one and is created only if the older one is
  have like {combined : BucketEntry κ ν} (same : settled ofEntry combined = settled ofEntry newEntry)
      (created : combined.isInit → oldEntry.isInit) :
      Tells ofEntry batch last oldest newest key (some combined) :=
    { made := fun _ => changed
      born := fun found is isInit => by
        cases is
        exact older.born oldEntry rfl (created isInit)
      present := fun settles found is => by
        cases is
        rw [same]
        exact newer.present settles newEntry rfl
      absent := fun _ impossible => absurd impossible (Option.some_ne_none _) }
  cases newEntry with
  | METAENTRY ledgerVersion => exact absurd rfl newKeyed
  | INITENTRY place value =>
      have dead := older.follows oldKeyed newer rfl
      cases oldEntry with
      | DEADENTRY oldKey => exact like rfl fun impossible => (by cases impossible)
      | METAENTRY ledgerVersion => cases dead
      | LIVEENTRY oldKey oldValue => cases dead
      | INITENTRY oldKey oldValue => cases dead
  | LIVEENTRY place value =>
      cases oldEntry with
      | INITENTRY oldKey oldValue => exact like rfl fun _ => rfl
      | METAENTRY ledgerVersion => exact absurd rfl oldKeyed
      | LIVEENTRY oldKey oldValue => exact like rfl fun impossible => (by cases impossible)
      | DEADENTRY oldKey => exact like rfl fun impossible => (by cases impossible)
  | DEADENTRY place =>
      cases oldEntry with
      | INITENTRY oldKey oldValue =>
          -- created and removed again
          obtain ⟨matter, gone⟩ := older.born _ rfl rfl
          apply tells_none
          intro settles
          have removed := newer.present settles _ rfl
          exact ⟨removed.trans gone.symm, matter⟩
      | METAENTRY ledgerVersion => exact absurd rfl oldKeyed
      | LIVEENTRY oldKey oldValue => exact like rfl fun impossible => (by cases impossible)
      | DEADENTRY oldKey => exact like rfl fun impossible => (by cases impossible)

theorem Tells.across (oldKeyed : ∀ entry, old = some entry → entry.key? ≠ none)
    (newKeyed : ∀ entry, new = some entry → entry.key? ≠ none) (early : oldest ≤ middle)
    (late : middle ≤ newest) (older : Tells ofEntry batch last oldest middle key old)
    (newer : Tells ofEntry batch last middle newest key new) :
    Tells ofEntry batch last oldest newest key (join table old new) := by
  cases old with
  | none =>
      cases new with
      | none => exact older.across_none early newer
      | some entry => exact older.across_new early newer
  | some oldEntry =>
      cases new with
      | none => exact older.across_old late newer
      | some newEntry =>
          exact older.across_both (oldKeyed _ rfl) (newKeyed _ rfl) early newer

theorem Tells.dropped (tells : Tells ofEntry batch last 0 newest key (some entry))
    (dead : entry.isDead) : Tells ofEntry batch last 0 newest key none := by
  apply tells_none
  intro settles
  refine ⟨?_, .inl rfl⟩
  rw [tells.present settles entry rfl]
  cases entry with
  | DEADENTRY place => rfl
  | METAENTRY ledgerVersion => rfl
  | LIVEENTRY place value => cases dead
  | INITENTRY place value => cases dead

end Tell

include fed in
theorem batch_tells {ledger : Nat} (within : ledger < last) (key : κ) :
    Tells ofEntry batch last ledger (ledger + 1) key (lookup key (batch (ledger + 1))) where
  made has := ⟨ledger + 1, Nat.lt_succ_self ledger, le_rfl, has⟩
  born found isFound created := by
    refine ⟨.inr ?_, fed.created ledger within key found isFound created⟩
    intro next entry above _ foundNext least
    rcases Nat.lt_or_eq_of_le (Nat.succ_le_of_lt above) with later | now
    · have quiet := least (ledger + 1) (Nat.lt_succ_self ledger) later
      rw [isFound] at quiet
      cases quiet
    · rw [← now] at foundNext
      cases isFound.symm.trans foundNext
      exact created
  present _ found isFound := overlay_found isFound _
  absent settles quiet := by
    refine ⟨overlay_absent quiet _, .inr (settles.quiet (Nat.le_succ ledger) ?_)⟩
    intro next above below
    obtain rfl : next = ledger + 1 := by omega
    exact quiet

/-! ### Buckets -/

structure Holds (ofEntry : κ → ν → α) (batch : Nat → Bucket κ ν) (protocol : Nat → Nat)
    (last now oldest newest : Nat) (bucket : Bucket κ ν) : Prop where
  order : oldest ≤ newest
  sorted : StrictlySorted bucket
  legal : Legal bucket
  version : metadata bucket ≤ protocol now
  /-- Without entries that begin lives, none were begun. -/
  unborn : metadata bucket < FIRST_PROTOCOL_SUPPORTING_INITENTRY_AND_METAENTRY →
    ∀ ledger key entry, oldest < ledger → ledger ≤ newest →
      lookup key (batch ledger) = some entry → ¬ entry.isInit
  tells : ∀ key, Tells ofEntry batch last oldest newest key (lookup key bucket)

variable {now upTo : Nat} {buckets : List (Bucket κ ν)}

theorem tiles_ordered (tiles : Tiles (Holds ofEntry batch protocol last) now buckets oldest upTo) :
    oldest ≤ upTo := by
  induction buckets generalizing upTo with
  | nil => exact Nat.le_of_eq tiles
  | cons bucket rest ih =>
      obtain ⟨cut, holds, below⟩ := tiles
      exact (ih below).trans holds.order

theorem tiles_hold (tiles : Tiles (Holds ofEntry batch protocol last) now buckets oldest upTo) :
    ∀ bucket ∈ buckets, StrictlySorted bucket ∧ Legal bucket ∧ metadata bucket ≤ protocol now := by
  induction buckets generalizing upTo with
  | nil => exact fun bucket absent => (by cases absent)
  | cons bucket rest ih =>
      obtain ⟨cut, holds, below⟩ := tiles
      exact List.forall_mem_cons.mpr ⟨⟨holds.sorted, holds.legal, holds.version⟩, ih below⟩

theorem tiles_changed (tiles : Tiles (Holds ofEntry batch protocol last) now buckets oldest upTo)
    {bucket : Bucket κ ν} (member : bucket ∈ buckets) (has : lookup key bucket ≠ none) :
    ∃ ledger, oldest < ledger ∧ ledger ≤ upTo ∧ lookup key (batch ledger) ≠ none := by
  induction buckets generalizing upTo with
  | nil => cases member
  | cons first rest ih =>
      obtain ⟨cut, holds, below⟩ := tiles
      rcases List.mem_cons.mp member with rfl | later
      · obtain ⟨ledger, above, within, changed⟩ := (holds.tells key).made has
        exact ⟨ledger, (tiles_ordered below).trans_lt above, within, changed⟩
      · obtain ⟨ledger, above, within, changed⟩ := ih below later
        exact ⟨ledger, above, within.trans holds.order, changed⟩

theorem tiles_unborn (tiles : Tiles (Holds ofEntry batch protocol last) now buckets oldest upTo)
    (old : ∀ bucket ∈ buckets,
      metadata bucket < FIRST_PROTOCOL_SUPPORTING_INITENTRY_AND_METAENTRY)
    {ledger : Nat} {entry : BucketEntry κ ν} (above : oldest < ledger) (within : ledger ≤ upTo)
    (found : lookup key (batch ledger) = some entry) : ¬ entry.isInit := by
  induction buckets generalizing upTo with
  | nil =>
      obtain rfl : oldest = upTo := tiles
      omega
  | cons first rest ih =>
      obtain ⟨cut, holds, below⟩ := tiles
      obtain ⟨isOld, others⟩ := List.forall_mem_cons.mp old
      rcases Nat.lt_or_ge cut ledger with later | early
      · exact holds.unborn isOld ledger key entry later within found
      · exact ih below others early

omit [LinearOrder κ] in
theorem metadata_le_mergeVersion {oldBucket newBucket shadow : Bucket κ ν}
    {shadows : List (Bucket κ ν)} (member : shadow ∈ shadows) :
    metadata shadow ≤ mergeVersion oldBucket newBucket shadows := by
  unfold mergeVersion
  generalize max (metadata oldBucket) (metadata newBucket) = start
  induction shadows generalizing start with
  | nil => cases member
  | cons first rest ih =>
      rcases List.mem_cons.mp member with rfl | later
      · exact (le_max_left _ _).trans (le_foldl_metadata _ rest)
      · exact ih later _

theorem lookup_keyed {bucket : Bucket κ ν} {entry : BucketEntry κ ν}
    (found : lookup key bucket = some entry) : entry.key? ≠ none := by
  rw [lookup_key found]
  exact Option.some_ne_none key

theorem Shadowed.lookup {shadows : List (Bucket κ ν)} {entry : BucketEntry κ ν}
    (shadowed : Shadowed shadows entry) (isKey : entry.key? = some key) :
    ∃ shadow ∈ shadows, lookup key shadow ≠ none := by
  obtain ⟨shadow, member, other, has, same⟩ := shadowed
  refine ⟨shadow, member, ?_⟩
  intro absent
  have otherKey : other.key? = some key := (show other.key? = entry.key? from same).trans isKey
  exact List.find?_eq_none.mp absent other has (by simp [otherKey])

include fed in
/-- Where a shadow hides an entry, the state that the entry tells does not matter any more. -/
theorem Hidden.forgotten {oldBucket newBucket : Bucket κ ν} {shadows : List (Bucket κ ν)}
    {entry : BucketEntry κ ν} (isKey : entry.key? = some key)
    (hidden : Hidden shadows (HasLifecycles oldBucket newBucket shadows) entry)
    (tiles : Tiles (Holds ofEntry batch protocol last) now shadows newest upTo) (within : upTo ≤ last)
    (tells : Tells ofEntry batch last oldest newest key (some entry)) :
    ¬ Settles batch last key newest := by
  intro settles
  obtain ⟨notExempt, shadowed⟩ := hidden
  obtain ⟨shadow, member, has⟩ := shadowed.lookup isKey
  obtain ⟨ledger, above, below, changed⟩ := tiles_changed tiles member has
  obtain ⟨gone, first, created, after, before, found, isInit, -⟩ :=
    settles.first fed above (below.trans within) changed
  rw [tells.present settles entry rfl] at gone
  have lifecycle : entry.isLifecycleEntry := by
    have dead := settled_none (isKey ▸ Option.some_ne_none key) gone
    cases entry with
    | DEADENTRY place => rfl
    | METAENTRY ledgerVersion => cases dead
    | LIVEENTRY place value => cases dead
    | INITENTRY place value => cases dead
  have isOld : mergeVersion oldBucket newBucket shadows <
      FIRST_PROTOCOL_SUPPORTING_INITENTRY_AND_METAENTRY := by
    by_contra isNew
    exact notExempt ⟨decide_eq_true (Nat.not_lt.mp isNew), lifecycle⟩
  exact tiles_unborn tiles (fun bucket has => (metadata_le_mergeVersion has).trans_lt isOld) after
    (before.trans below) found isInit

include fed in
theorem merge_holds {ledger : Nat} {oldBucket newBucket out : Bucket κ ν}
    {shadows : List (Bucket κ ν)} {keepDeadEntries : Bool} (within : upTo ≤ last)
    (older : Holds ofEntry batch protocol last (ledger + 1) oldest middle oldBucket)
    (newer : Holds ofEntry batch protocol last (ledger + 1) middle newest newBucket)
    (tiles : Tiles (Holds ofEntry batch protocol last) (ledger + 1) shadows newest upTo)
    (bottom : keepDeadEntries = false → oldest = 0)
    (merged : merge (protocol (ledger + 1)) oldBucket newBucket shadows keepDeadEntries = .ok out) :
    Holds ofEntry batch protocol last (ledger + 1) oldest newest out where
  order := older.order.trans newer.order
  sorted := merge_sorted older.sorted newer.sorted merged
  legal := legal_shadowed older.sorted newer.sorted older.legal newer.legal merged
  version := merge_metadata merged
  unborn isOld changed key entry above below found := by
    have few : mergeVersion oldBucket newBucket shadows <
        FIRST_PROTOCOL_SUPPORTING_INITENTRY_AND_METAENTRY := by
      rw [metadata_shadowed older.sorted newer.sorted merged] at isOld
      split at isOld
      · exact isOld
      · rename_i few
        exact Nat.lt_of_not_le few
    have start : max (metadata oldBucket) (metadata newBucket) ≤
        mergeVersion oldBucket newBucket shadows := le_foldl_metadata _ shadows
    rcases Nat.lt_or_ge middle changed with late | early
    · exact newer.unborn (((le_max_right _ _).trans start).trans_lt few) _ key entry late below found
    · exact older.unborn (((le_max_left _ _).trans start).trans_lt few) _ key entry above early found
  tells key := by
    have across := (older.tells key).across (fun _ => lookup_keyed) (fun _ => lookup_keyed)
      older.order newer.order (newer.tells key)
    rcases lookup_shadowed older.sorted newer.sorted merged key with same | ⟨gone, entry, told, why⟩
    · rw [same]
      exact across
    · rw [gone]
      rw [told] at across
      rcases why with ⟨drops, dead⟩ | hidden
      · obtain rfl := bottom drops
        exact across.dropped dead
      · have isKey : entry.key? = some key := by
          rw [← lookup_mergeEntries older.sorted newer.sorted] at told
          exact lookup_key told
        apply tells_none
        intro settles
        exact absurd settles (hidden.forgotten fed isKey tiles within across)

theorem merge_succeeds {ledger : Nat} {oldBucket newBucket : Bucket κ ν}
    {shadows : List (Bucket κ ν)}
    (older : Holds ofEntry batch protocol last (ledger + 1) oldest middle oldBucket)
    (newer : Holds ofEntry batch protocol last (ledger + 1) middle newest newBucket)
    (tiles : Tiles (Holds ofEntry batch protocol last) (ledger + 1) shadows newest upTo)
    (keepDeadEntries : Bool) :
    ∃ out, merge (protocol (ledger + 1)) oldBucket newBucket shadows keepDeadEntries = .ok out := by
  have shadowsHold := tiles_hold tiles
  apply merge_ok older.sorted newer.sorted older.legal newer.legal
  · apply follows_of_lookup older.sorted newer.sorted
    intro key old new inOld inNew created
    have oldTells := older.tells key
    have newTells := newer.tells key
    rw [inOld] at oldTells
    rw [inNew] at newTells
    exact oldTells.follows (lookup_keyed inOld) newTells created
  · exact fun shadow member => ⟨(shadowsHold shadow member).1, (shadowsHold shadow member).2.1⟩
  · exact mergeVersion_le older.version newer.version
      fun shadow member => (shadowsHold shadow member).2.2

include fed in
theorem holds_covering :
    Covering (Holds ofEntry batch protocol last) (bucketMerger κ ν) protocol batch last where
  later le within holds :=
    { holds with version := holds.version.trans (fed.monotone _ _ le within) }
  nothing now ledger :=
    { order := le_rfl
      sorted := List.Pairwise.nil
      legal := fun entry absent => (by cases absent)
      version := Nat.zero_le _
      unborn := fun _ changed _ _ above below => absurd above (by omega)
      tells := fun key => tells_none fun settles => ⟨rfl, .inr settles⟩ }
  moved other holds :=
    { order := le_rfl
      sorted := holds.sorted
      legal := holds.legal
      version := holds.version
      unborn := fun _ changed _ _ above below => absurd above (by omega)
      tells := fun key => by
        cases found : lookup key _ with
        | none => exact tells_none fun settles => ⟨rfl, .inr settles⟩
        | some entry =>
            obtain ⟨ledger, above, below, -⟩ := (holds.tells key).made (by
              rw [found]
              exact Option.some_ne_none _)
            omega }
  enters ledger within :=
    { order := Nat.le_succ ledger
      sorted := fed.sorted ledger within
      legal := fed.legal ledger within
      version := fed.version ledger within
      unborn := fun isOld changed key entry above below found created => by
        obtain rfl : changed = ledger + 1 := by omega
        have isNew := fed.legal ledger within entry (List.mem_of_find?_eq_some found) created
        omega
      tells := batch_tells fed within }
  merges inputs within early late order older newer tiles version bottom := by
    obtain ⟨out, merged⟩ := merge_succeeds older newer tiles inputs.keepDeadEntries
    refine ⟨out, ?_, merge_holds fed (order.trans within) older newer tiles bottom merged⟩
    unfold bucketMerger
    dsimp only
    rw [version, merged]
    rfl

/-! ### The list -/

def newestEntry (key : κ) (buckets : List (Bucket κ ν)) : Option (BucketEntry κ ν) :=
  buckets.findSome? (lookup key)

theorem newestEntry_state
    (tiles : Tiles (Holds ofEntry batch protocol last) now buckets 0 newest)
    (matter : Matters batch last key newest) :
    (newestEntry key buckets).bind (settled ofEntry) = stateAt ofEntry batch newest key := by
  induction buckets generalizing newest with
  | nil =>
      obtain rfl : 0 = newest := tiles
      rfl
  | cons bucket rest ih =>
      obtain ⟨cut, holds, below⟩ := tiles
      have told := holds.tells key
      unfold newestEntry
      cases found : lookup key bucket with
      | some entry =>
          rw [found] at told
          rw [List.findSome?_cons_of_isSome (by rw [found]; rfl), found]
          exact (told.present (told.settles_of_matters matter) entry rfl).symm
      | none =>
          rw [found] at told
          rw [List.findSome?_cons_of_isNone (by rw [found]; rfl)]
          rcases matter with zero | settles
          · have bottom : cut = newest := by
              have order := holds.order
              omega
            rw [← bottom] at zero ⊢
            exact ih below (.inl zero)
          · obtain ⟨same, before⟩ := told.absent settles rfl
            rw [same]
            exact ih below before

theorem stateOf_newestEntry (buckets : List (Bucket κ ν)) (key : κ) :
    stateOf ofEntry (fun _ => none) buckets.reverse key =
      (newestEntry key buckets).bind (settled ofEntry) := by
  induction buckets with
  | nil => rfl
  | cons bucket rest ih =>
      unfold stateOf at ih ⊢
      rw [List.reverse_cons, List.foldl_append]
      unfold newestEntry at ih ⊢
      cases found : lookup key bucket with
      | some entry =>
          rw [List.findSome?_cons_of_isSome (by rw [found]; rfl), found]
          exact overlay_found found _
      | none =>
          rw [List.findSome?_cons_of_isNone (by rw [found]; rfl), ← ih]
          exact overlay_absent found _

include fed in
theorem addBatches_state (bound : last < 2 ^ 32) :
    ∃ list, BucketList.addBatches (bucketMerger κ ν) protocol batch last = some list ∧
      ∀ key, (newestEntry key (list.shadows kNumLevels)).bind (settled ofEntry) =
        stateAt ofEntry batch last key := by
  obtain ⟨list, ran, tiles⟩ := addBatches_tiles (holds_covering fed) bound
  exact ⟨list, ran, fun key => newestEntry_state tiles (.inr settles_last)⟩

end Telling

end ViiCore.Bucket
