import Mathlib.Data.Option.Basic
import ViiCore.Bucket.FutureBucket
import ViiCore.Bucket.MergeVersions

/-!
A node that is restarted goes on with the same bucket list.

Two lists are alike where they have the same buckets and where the same result is waited for at
each level, whether it is there already or still to be merged. Batches keep lists alike, and a list
that is saved and restarted is like the list it was. The version a merge is restarted with does not
matter, because the version of a merge is that of its inputs.
-/

namespace ViiCore.Bucket

/-! ### Merges and versions -/

structure InputsWithin {β : Type} (version : β → Nat) (bound : Nat) (inputs : FutureBucket β) :
    Prop where
  curr : version inputs.mInputCurrBucket ≤ bound
  snap : version inputs.mInputSnapBucket ≤ bound
  shadows : ∀ shadow ∈ inputs.mInputShadowBuckets, version shadow ≤ bound

/-- What the version limit does in a merge: nothing, where no input exceeds it. -/
structure Versioned {β : Type} (merger : Merger β) (version : β → Nat) : Prop where
  empty : version merger.empty = 0
  merged : ∀ inputs bucket, merger.merge inputs = some bucket →
    version bucket ≤ inputs.maxProtocolVersion
  limit : ∀ inputs maxProtocolVersion, InputsWithin version inputs.maxProtocolVersion inputs →
    InputsWithin version maxProtocolVersion inputs →
    merger.merge { inputs with maxProtocolVersion } = merger.merge inputs

def bucketMerger (κ ν : Type) [LinearOrder κ] : Merger (Bucket κ ν) where
  empty := []
  merge inputs := (merge inputs.maxProtocolVersion inputs.mInputCurrBucket inputs.mInputSnapBucket
    inputs.mInputShadowBuckets inputs.keepDeadEntries).toOption

theorem bucketMerger_versioned (κ ν : Type) [LinearOrder κ] :
    Versioned (bucketMerger κ ν) metadata where
  empty := rfl
  merged inputs bucket ran := by
    simp only [bucketMerger] at ran
    cases merged : merge inputs.maxProtocolVersion inputs.mInputCurrBucket
        inputs.mInputSnapBucket inputs.mInputShadowBuckets inputs.keepDeadEntries with
    | error fault =>
        rw [merged] at ran
        cases ran
    | ok result =>
        rw [merged] at ran
        cases ran
        exact merge_metadata merged
  limit inputs maxProtocolVersion within withinOther := by
    simp only [bucketMerger]
    rw [merge_limit (mergeVersion_le withinOther.curr withinOther.snap withinOther.shadows)
      (mergeVersion_le within.curr within.snap within.shadows)]

theorem InputsWithin.mono {β : Type} {version : β → Nat} {bound larger : Nat}
    {inputs : FutureBucket β} (within : InputsWithin version bound inputs) (le : bound ≤ larger) :
    InputsWithin version larger inputs where
  curr := within.curr.trans le
  snap := within.snap.trans le
  shadows shadow member := (within.shadows shadow member).trans le

/-! ### Computations that fail together -/

theorem rel_mono {α α' : Type} {r s : α → α' → Prop} {x : Option α} {y : Option α'}
    (related : Option.Rel r x y) (weaken : ∀ a b, r a b → s a b) : Option.Rel s x y := by
  cases related with
  | none => exact Option.Rel.none
  | some holds => exact Option.Rel.some (weaken _ _ holds)

theorem rel_bind {α α' γ γ' : Type} {r : α → α' → Prop} {s : γ → γ' → Prop} {x : Option α}
    {y : Option α'} {f : α → Option γ} {g : α' → Option γ'} (first : Option.Rel r x y)
    (second : ∀ a b, r a b → Option.Rel s (f a) (g b)) : Option.Rel s (x >>= f) (y >>= g) := by
  cases first with
  | none => exact Option.Rel.none
  | some related => exact second _ _ related

/-! ### Lists that go on alike -/

section Alike

variable {β η : Type} {merger : Merger β}

variable (merger) in
structure LevelAlike (level other : RunningLevel β η) : Prop where
  mLevel : level.mLevel = other.mLevel
  curr : level.mCurr = other.mCurr
  snap : level.mSnap = other.mSnap
  live : level.mNextCurr.isLive = other.mNextCurr.isLive
  result : level.mNextCurr.resolve merger = other.mNextCurr.resolve merger

variable (merger) in
structure Alike (list other : RunningList β η) : Prop where
  levels : ∀ i, i < kNumLevels → LevelAlike merger (list.mLevels i) (other.mLevels i)
  /-- The first level never waits for a merge. -/
  clear : (list.mLevels 0).mNextCurr = .FB_CLEAR ∧ (other.mLevels 0).mNextCurr = .FB_CLEAR

variable {level other : RunningLevel β η}

theorem LevelAlike.snapped (alike : LevelAlike merger level other) :
    LevelAlike merger (level.snap merger) (other.snap merger) where
  mLevel := alike.mLevel
  curr := rfl
  snap := alike.curr
  live := alike.live
  result := alike.result

variable (merger) in
structure Committed (level other : RunningLevel β η) : Prop where
  alike : LevelAlike merger level other
  idle : level.mNextCurr.isMerging = false ∧ other.mNextCurr.isMerging = false

theorem isMerging_of_dead {state : FutureBucketState β η} (dead : ¬ state.isLive = true) :
    state.isMerging = false := by
  cases state with
  | FB_LIVE_INPUTS inputs => exact absurd rfl dead
  | FB_CLEAR => rfl
  | FB_HASH_OUTPUT output => rfl
  | FB_HASH_INPUTS curr snap shadows => rfl
  | FB_LIVE_OUTPUT output => rfl

theorem LevelAlike.committed_live (alike : LevelAlike merger level other)
    (live : level.mNextCurr.isLive = true) :
    Option.Rel (fun after afterOther => LevelAlike merger after afterOther ∧
        after.mNextCurr = .FB_CLEAR ∧ afterOther.mNextCurr = .FB_CLEAR)
      (level.commit merger) (other.commit merger) := by
  unfold RunningLevel.commit
  rw [← alike.live, ← alike.result, if_pos live, if_pos live]
  cases level.mNextCurr.resolve merger with
  | none => exact Option.Rel.none
  | some result => exact Option.Rel.some ⟨⟨alike.mLevel, rfl, alike.snap, rfl, rfl⟩, rfl, rfl⟩

theorem LevelAlike.committed (alike : LevelAlike merger level other) :
    Option.Rel (Committed merger) (level.commit merger) (other.commit merger) := by
  by_cases live : level.mNextCurr.isLive = true
  · apply rel_mono (alike.committed_live live)
    intro after afterOther ⟨same, clear, clearOther⟩
    exact ⟨same, by rw [clear]; rfl, by rw [clearOther]; rfl⟩
  · have otherDead : ¬ other.mNextCurr.isLive = true := by
      rw [← alike.live]
      exact live
    unfold RunningLevel.commit
    rw [if_neg live, if_neg otherDead]
    exact Option.Rel.some ⟨alike, isMerging_of_dead live, isMerging_of_dead otherDead⟩

theorem Committed.prepared (committed : Committed merger level other)
    (currLedger currLedgerProtocol : Nat) (snap : β) (shadows : List β) :
    Option.Rel (fun after afterOther => LevelAlike merger after afterOther ∧
        after.mNextCurr.isLive = true)
      (level.prepare merger currLedger currLedgerProtocol snap shadows)
      (other.prepare merger currLedger currLedgerProtocol snap shadows) := by
  have alike := committed.alike
  unfold RunningLevel.prepare
  rw [committed.idle.1, committed.idle.2, alike.mLevel, alike.curr, alike.snap]
  exact Option.Rel.some ⟨⟨rfl, rfl, rfl, rfl, rfl⟩, rfl⟩

variable {list others : RunningList β η}

theorem Alike.set (alike : Alike merger list others) {i : Nat} {level other : RunningLevel β η}
    (same : LevelAlike merger level other)
    (clear : i = 0 → level.mNextCurr = .FB_CLEAR ∧ other.mNextCurr = .FB_CLEAR) :
    Alike merger (list.set i level) (others.set i other) := by
  constructor
  · intro j within
    by_cases changed : j = i
    · rw [changed, RunningList.set_self, RunningList.set_self]
      exact same
    · rw [RunningList.set_of_ne _ changed, RunningList.set_of_ne _ changed]
      exact alike.levels j within
  · by_cases changed : 0 = i
    · rw [← changed, RunningList.set_self, RunningList.set_self]
      exact clear changed.symm
    · rw [RunningList.set_of_ne _ changed, RunningList.set_of_ne _ changed]
      exact alike.clear

theorem Alike.shadows (alike : Alike merger list others) {i : Nat} (within : i ≤ kNumLevels) :
    list.shadows i = others.shadows i := by
  unfold RunningList.shadows
  apply List.flatMap_congr
  intro j member
  have below := List.mem_range.mp member
  have same := alike.levels j (by omega)
  rw [same.curr, same.snap]

theorem Alike.spill (alike : Alike merger list others) {before beforeOther : RunningList β η}
    (alikeBefore : Alike merger before beforeOther) {i : Nat} (within : i + 1 < kNumLevels)
    (currLedger currLedgerProtocol : Nat) :
    Option.Rel (Alike merger)
      (RunningList.spill merger currLedger currLedgerProtocol before i list)
      (RunningList.spill merger currLedger currLedgerProtocol beforeOther i others) := by
  unfold RunningList.spill
  split
  · have snapped := (alike.levels i (by omega)).snapped
    apply rel_bind (alike.levels (i + 1) within).committed
    intro committed committedOther both
    have prepared := both.prepared currLedger currLedgerProtocol
      ((list.mLevels i).snap merger).mSnap (before.shadows i)
    rw [snapped.snap, alikeBefore.shadows (by omega)] at prepared
    rw [snapped.snap, alikeBefore.shadows (by omega)]
    apply rel_bind prepared
    intro next nextOther ⟨same, _⟩
    apply Option.Rel.some
    apply Alike.set
    · apply alike.set snapped
      rintro rfl
      exact alike.clear
    · exact same
    · intro impossible
      exact absurd impossible (Nat.succ_ne_zero i)
  · exact Option.Rel.some alike

theorem Alike.spillLevels (alike : Alike merger list others)
    {before beforeOther : RunningList β η} (alikeBefore : Alike merger before beforeOther) {n : Nat}
    (within : n < kNumLevels) (currLedger currLedgerProtocol : Nat) :
    Option.Rel (Alike merger)
      (RunningList.spillLevels merger currLedger currLedgerProtocol before n list)
      (RunningList.spillLevels merger currLedger currLedgerProtocol beforeOther n others) := by
  induction n generalizing list others with
  | zero => exact Option.Rel.some alike
  | succ i ih =>
      apply rel_bind (alike.spill alikeBefore within currLedger currLedgerProtocol)
      intro spilled spilledOther same
      exact ih same (by omega)

theorem Alike.addBatch (alike : Alike merger list others) (currLedger currLedgerProtocol : Nat)
    (fresh : β) :
    Option.Rel (Alike merger) (list.addBatch merger currLedger currLedgerProtocol fresh)
      (others.addBatch merger currLedger currLedgerProtocol fresh) := by
  unfold RunningList.addBatch
  split
  · exact Option.Rel.none
  · have within : kNumLevels - 1 < kNumLevels := by decide
    apply rel_bind (alike.spillLevels alike within currLedger currLedgerProtocol)
    intro spilled spilledOther same
    have idle : Committed merger (spilled.mLevels 0) (spilledOther.mLevels 0) :=
      ⟨same.levels 0 (by decide), by rw [same.clear.1]; rfl, by rw [same.clear.2]; rfl⟩
    apply rel_bind (idle.prepared currLedger currLedgerProtocol fresh [])
    intro prepared preparedOther ⟨samePrepared, live⟩
    apply rel_bind (samePrepared.committed_live live)
    intro committed committedOther ⟨sameCommitted, clear⟩
    exact Option.Rel.some (same.set sameCommitted fun _ => clear)

end Alike

/-! ### What holds along a run -/

section Run

variable {β η : Type} {merger : Merger β} {version : β → Nat}

variable (version) in
/-- The buckets of a level, and what its merge was started with, are not newer than a version. -/
structure LevelWithin (bound i : Nat) (level : RunningLevel β η) : Prop where
  mLevel : level.mLevel = i
  curr : version level.mCurr ≤ bound
  snap : version level.mSnap ≤ bound
  live : level.mNextCurr.hasHashes = false
  merging : ∀ inputs, level.mNextCurr = .FB_LIVE_INPUTS inputs →
    InputsWithin version inputs.maxProtocolVersion inputs ∧ inputs.maxProtocolVersion ≤ bound ∧
      inputs.keepDeadEntries = keepDeadEntries i
  output : ∀ bucket, level.mNextCurr = .FB_LIVE_OUTPUT bucket → version bucket ≤ bound

variable (version) in
structure Within (bound : Nat) (list : RunningList β η) : Prop where
  levels : ∀ i, LevelWithin version bound i (list.mLevels i)
  clear : (list.mLevels 0).mNextCurr = .FB_CLEAR

theorem LevelWithin.mono {bound larger i : Nat} {level : RunningLevel β η}
    (within : LevelWithin version bound i level) (le : bound ≤ larger) :
    LevelWithin version larger i level where
  mLevel := within.mLevel
  curr := within.curr.trans le
  snap := within.snap.trans le
  live := within.live
  merging inputs running := by
    obtain ⟨inputsWithin, limit, keep⟩ := within.merging inputs running
    exact ⟨inputsWithin, limit.trans le, keep⟩
  output bucket done := (within.output bucket done).trans le

theorem empty_within (versioned : Versioned merger version) :
    Within version 0 (RunningList.empty merger : RunningList β η) where
  levels i := by
    refine ⟨rfl, versioned.empty.le, versioned.empty.le, rfl, ?_, ?_⟩
    · intro inputs impossible
      cases impossible
    · intro bucket impossible
      cases impossible
  clear := rfl

theorem LevelWithin.snapped (versioned : Versioned merger version) {bound i : Nat}
    {level : RunningLevel β η} (within : LevelWithin version bound i level) :
    LevelWithin version bound i (level.snap merger) where
  mLevel := within.mLevel
  curr := versioned.empty.le.trans (Nat.zero_le bound)
  snap := within.curr
  live := within.live
  merging := within.merging
  output := within.output

theorem LevelWithin.setCurr {bound i : Nat} {level : RunningLevel β η}
    (within : LevelWithin version bound i level) {bucket : β} (older : version bucket ≤ bound) :
    LevelWithin version bound i (level.setCurr bucket) := by
  refine ⟨within.mLevel, older, within.snap, rfl, ?_, ?_⟩
  · intro inputs impossible
    cases impossible
  · intro output impossible
    cases impossible

theorem LevelWithin.committed (versioned : Versioned merger version) {bound i : Nat}
    {level after : RunningLevel β η} (within : LevelWithin version bound i level)
    (committed : level.commit merger = some after) :
    LevelWithin version bound i after ∧
      (level.mNextCurr.isLive = true → after.mNextCurr = .FB_CLEAR) := by
  unfold RunningLevel.commit at committed
  split at committed
  · obtain ⟨bucket, resolved, same⟩ := Option.bind_eq_some_iff.mp committed
    cases same
    have older : version bucket ≤ bound := by
      cases next : level.mNextCurr with
      | FB_LIVE_INPUTS inputs =>
          rw [next] at resolved
          exact (versioned.merged inputs bucket resolved).trans (within.merging inputs next).2.1
      | FB_LIVE_OUTPUT done =>
          rw [next] at resolved
          cases resolved
          exact within.output bucket next
      | FB_CLEAR =>
          rw [next] at resolved
          cases resolved
      | FB_HASH_OUTPUT output =>
          rw [next] at resolved
          cases resolved
      | FB_HASH_INPUTS curr snap shadows =>
          rw [next] at resolved
          cases resolved
    exact ⟨within.setCurr older, fun _ => rfl⟩
  · rename_i dead
    cases committed
    exact ⟨within, fun live => absurd live dead⟩

theorem LevelWithin.prepared (versioned : Versioned merger version) {bound i : Nat}
    {level after : RunningLevel β η} (within : LevelWithin version bound i level)
    {currLedger currLedgerProtocol : Nat} (later : bound ≤ currLedgerProtocol) {snap : β}
    (snapOlder : version snap ≤ currLedgerProtocol) {shadows : List β}
    (shadowsOlder : ∀ shadow ∈ shadows, version shadow ≤ currLedgerProtocol)
    (prepared : level.prepare merger currLedger currLedgerProtocol snap shadows = some after) :
    LevelWithin version currLedgerProtocol i after ∧ after.mNextCurr.isLive = true := by
  unfold RunningLevel.prepare at prepared
  split at prepared
  · cases prepared
  · cases prepared
    refine ⟨⟨within.mLevel, within.curr.trans later, within.snap.trans later, rfl, ?_, ?_⟩, rfl⟩
    · intro inputs running
      cases running
      refine ⟨⟨?_, snapOlder, shadowsOlder⟩, le_rfl, ?_⟩
      · simp only [BucketLevel.startMerge]
        split
        · exact versioned.empty.le.trans (Nat.zero_le _)
        · exact within.curr.trans later
      · simp only [BucketLevel.startMerge, within.mLevel]
    · intro bucket impossible
      cases impossible

theorem Within.mono {bound larger : Nat} {list : RunningList β η} (within : Within version bound list)
    (le : bound ≤ larger) : Within version larger list :=
  ⟨fun i => (within.levels i).mono le, within.clear⟩

theorem Within.set {bound i : Nat} {list : RunningList β η} {level : RunningLevel β η}
    (within : Within version bound list) (changed : LevelWithin version bound i level)
    (clear : i = 0 → level.mNextCurr = .FB_CLEAR) : Within version bound (list.set i level) := by
  constructor
  · intro j
    by_cases same : j = i
    · rw [same, RunningList.set_self]
      exact changed
    · rw [RunningList.set_of_ne _ same]
      exact within.levels j
  · by_cases same : 0 = i
    · rw [← same, RunningList.set_self]
      exact clear same.symm
    · rw [RunningList.set_of_ne _ same]
      exact within.clear

theorem Within.shadows {bound : Nat} {list : RunningList β η} (within : Within version bound list)
    (i : Nat) : ∀ shadow ∈ list.shadows i, version shadow ≤ bound := by
  intro shadow member
  obtain ⟨j, -, either⟩ := List.mem_flatMap.mp member
  simp only [List.mem_cons, List.not_mem_nil, or_false] at either
  rcases either with same | same
  · rw [same]
    exact (within.levels j).curr
  · rw [same]
    exact (within.levels j).snap

section Batch

variable {currLedger currLedgerProtocol : Nat} {before list after : RunningList β η}

theorem Within.spill (versioned : Versioned merger version)
    (within : Within version currLedgerProtocol list)
    (withinBefore : Within version currLedgerProtocol before) {i : Nat}
    (spilled : RunningList.spill merger currLedger currLedgerProtocol before i list = some after) :
    Within version currLedgerProtocol after := by
  unfold RunningList.spill at spilled
  split at spilled
  · obtain ⟨committed, commits, spilled⟩ := Option.bind_eq_some_iff.mp spilled
    obtain ⟨prepared, prepares, same⟩ := Option.bind_eq_some_iff.mp spilled
    cases same
    have snapped := (within.levels i).snapped versioned
    have committedWithin := ((within.levels (i + 1)).committed versioned commits).1
    have preparedWithin := (committedWithin.prepared versioned le_rfl snapped.snap
      (withinBefore.shadows i) prepares).1
    apply Within.set
    · apply within.set snapped
      rintro rfl
      exact within.clear
    · exact preparedWithin
    · intro impossible
      exact absurd impossible (Nat.succ_ne_zero i)
  · cases spilled
    exact within

theorem Within.spillLevels (versioned : Versioned merger version)
    (within : Within version currLedgerProtocol list)
    (withinBefore : Within version currLedgerProtocol before) {n : Nat}
    (spilled : RunningList.spillLevels merger currLedger currLedgerProtocol before n list =
      some after) : Within version currLedgerProtocol after := by
  induction n generalizing list with
  | zero =>
      cases spilled
      exact within
  | succ i ih =>
      obtain ⟨next, first, rest⟩ := Option.bind_eq_some_iff.mp spilled
      exact ih (within.spill versioned withinBefore first) rest

theorem Within.addBatch (versioned : Versioned merger version)
    (within : Within version currLedgerProtocol list) {fresh : β}
    (older : version fresh ≤ currLedgerProtocol)
    (added : list.addBatch merger currLedger currLedgerProtocol fresh = some after) :
    Within version currLedgerProtocol after := by
  unfold RunningList.addBatch at added
  split at added
  · cases added
  · obtain ⟨spilled, spills, added⟩ := Option.bind_eq_some_iff.mp added
    obtain ⟨prepared, prepares, added⟩ := Option.bind_eq_some_iff.mp added
    obtain ⟨committed, commits, same⟩ := Option.bind_eq_some_iff.mp added
    cases same
    have spilledWithin := within.spillLevels versioned within spills
    have nothing : ∀ shadow ∈ ([] : List β), version shadow ≤ currLedgerProtocol := by
      intro shadow absent
      cases absent
    obtain ⟨preparedWithin, live⟩ := (spilledWithin.levels 0).prepared versioned le_rfl older
      nothing prepares
    obtain ⟨committedWithin, clear⟩ := preparedWithin.committed versioned commits
    exact spilledWithin.set committedWithin fun _ => clear live

end Batch

end Run

/-! ### Saving and restarting -/

section Restart

variable {β η : Type} {merger : Merger β} {version : β → Nat} {getHash : β → η}
variable {mergeComplete : Nat → Bool} {manager : BucketManager β η}

def FutureBucketState.buckets : FutureBucketState β η → List β
  | .FB_LIVE_INPUTS inputs =>
      inputs.mInputCurrBucket :: inputs.mInputSnapBucket :: inputs.mInputShadowBuckets
  | .FB_LIVE_OUTPUT output => [output]
  | _ => []

variable (manager getHash) in
def Stored (bucket : β) : Prop := manager.getBucketByHash (getHash bucket) = some bucket

variable (getHash manager) in
/-- The directory of the buckets has every file that a saved state names, and a file has the name
of its contents. -/
structure Intact (has : HistoryArchiveState β η) : Prop where
  complete : ∀ hash ∈ has.allBuckets getHash, (manager.getBucketByHash hash).isSome
  named : ∀ hash bucket, manager.getBucketByHash hash = some bucket → getHash bucket = hash

variable (merger mergeComplete) in
/-- The buckets whose hashes are saved with a list. -/
def RunningList.savedBuckets (list : RunningList β η) : List β :=
  (List.range kNumLevels).flatMap fun i =>
    (list.mLevels i).mCurr :: (list.mLevels i).mSnap ::
      ((HistoryArchiveState.resolveReady merger mergeComplete i (list.mLevels i).mNextCurr).elim []
        FutureBucketState.buckets)

theorem mem_savedBuckets {list : RunningList β η} {i : Nat} (below : i < kNumLevels)
    {ready : FutureBucketState β η}
    (resolved : HistoryArchiveState.resolveReady merger mergeComplete i
      (list.mLevels i).mNextCurr = some ready) {bucket : β}
    (among : bucket ∈ (list.mLevels i).mCurr :: (list.mLevels i).mSnap :: ready.buckets) :
    bucket ∈ list.savedBuckets merger mergeComplete := by
  refine List.mem_flatMap.mpr ⟨i, List.mem_range.mpr below, ?_⟩
  rw [resolved]
  exact among

variable (getHash manager) in
/-- No bucket is stored that has the hash of another one of `buckets`. -/
def CollisionFree (buckets : List β) : Prop :=
  ∀ bucket ∈ buckets, ∀ hash stored, manager.getBucketByHash hash = some stored →
    getHash stored = getHash bucket → stored = bucket

theorem Intact.stored {has : HistoryArchiveState β η} (intact : Intact getHash manager has)
    {buckets : List β} (collisionFree : CollisionFree getHash manager buckets) {bucket : β}
    (member : bucket ∈ buckets) (listed : getHash bucket ∈ has.allBuckets getHash) :
    Stored getHash manager bucket := by
  obtain ⟨found, same⟩ := Option.isSome_iff_exists.mp (intact.complete _ listed)
  unfold Stored
  rw [same, collisionFree bucket member _ found same (intact.named _ found same)]

theorem resolveAnyReadyFutures_levels {has after : HistoryArchiveState β η} {n : Nat}
    (resolved : has.resolveAnyReadyFutures merger mergeComplete n = some after) :
    (∀ i, i < n → ∃ ready, HistoryArchiveState.resolveReady merger mergeComplete i
        (has.currentBuckets i).next = some ready ∧
      after.currentBuckets i = { has.currentBuckets i with next := ready }) ∧
      ∀ i, n ≤ i → after.currentBuckets i = has.currentBuckets i := by
  induction n generalizing after with
  | zero =>
      cases resolved
      exact ⟨fun i impossible => absurd impossible (Nat.not_lt_zero i), fun _ _ => rfl⟩
  | succ n ih =>
      obtain ⟨earlier, ran, resolved⟩ := Option.bind_eq_some_iff.mp resolved
      obtain ⟨next, ready, same⟩ := Option.bind_eq_some_iff.mp resolved
      cases same
      obtain ⟨done, rest⟩ := ih ran
      constructor
      · intro i below
        by_cases last : i = n
        · rw [last]
          rw [rest n le_rfl] at ready
          refine ⟨next, ready, ?_⟩
          simp [rest n le_rfl]
        · obtain ⟨earlierReady, facts⟩ := done i (by omega)
          refine ⟨earlierReady, facts.1, ?_⟩
          simp [Function.update_of_ne last, facts.2]
      · intro i above
        have other : i ≠ n := by omega
        simp [Function.update_of_ne other, rest i (by omega)]

theorem persist_levels {list : RunningList β η} {has : HistoryArchiveState β η}
    (persisted : list.persist merger getHash mergeComplete = some has) (i : Nat)
    (below : i < kNumLevels) :
    ∃ ready, HistoryArchiveState.resolveReady merger mergeComplete i
        (list.mLevels i).mNextCurr = some ready ∧
      has.currentBuckets i =
        { curr := getHash (list.mLevels i).mCurr
          next := ready.save getHash
          snap := getHash (list.mLevels i).mSnap } := by
  obtain ⟨resolvedHas, resolves, same⟩ := Option.bind_eq_some_iff.mp persisted
  cases same
  obtain ⟨ready, resolved, level⟩ := (resolveAnyReadyFutures_levels resolves).1 i below
  refine ⟨ready, resolved, ?_⟩
  simp only [HistoryArchiveState.save, level]
  rfl

theorem save_getHashes (state : FutureBucketState β η) :
    (state.save getHash).getHashes getHash = state.getHashes getHash := by
  cases state <;> rfl

theorem getHashes_buckets {state : FutureBucketState β η} {bucket : β}
    (kept : bucket ∈ state.buckets) : getHash bucket ∈ state.getHashes getHash := by
  cases state with
  | FB_LIVE_INPUTS inputs =>
      simp only [FutureBucketState.buckets, List.mem_cons] at kept
      simp only [FutureBucketState.getHashes, List.mem_cons]
      rcases kept with same | same | member
      · exact .inl (by rw [same])
      · exact .inr (.inl (by rw [same]))
      · exact .inr (.inr (List.mem_map_of_mem member))
  | FB_LIVE_OUTPUT output =>
      rw [List.mem_singleton.mp kept]
      exact List.mem_singleton.mpr rfl
  | FB_CLEAR => cases kept
  | FB_HASH_OUTPUT hash => cases kept
  | FB_HASH_INPUTS curr snap shadows => cases kept

theorem assumeLevels_ok (has : HistoryArchiveState β η) (start : RunningList β η) (n : Nat)
    (curr snap : Nat → β)
    (currFound : ∀ i, i < n → manager.getBucketByHash (has.currentBuckets i).curr = some (curr i))
    (snapFound : ∀ i, i < n → manager.getBucketByHash (has.currentBuckets i).snap = some (snap i)) :
    ∃ after, RunningList.assumeLevels manager has start n = some after ∧
      (∀ i, i < n → after.mLevels i = { start.mLevels i with
        mCurr := curr i, mSnap := snap i, mNextCurr := (has.currentBuckets i).next }) ∧
      ∀ i, n ≤ i → after.mLevels i = start.mLevels i := by
  induction n with
  | zero => exact ⟨start, rfl, fun i impossible => absurd impossible (Nat.not_lt_zero i),
      fun _ _ => rfl⟩
  | succ n ih =>
      obtain ⟨earlier, ran, done, rest⟩ := ih
        (fun i below => currFound i (Nat.lt_succ_of_lt below))
        (fun i below => snapFound i (Nat.lt_succ_of_lt below))
      refine ⟨_, Option.bind_eq_some_iff.mpr ⟨earlier, ran,
        Option.bind_eq_some_iff.mpr ⟨_, currFound n (Nat.lt_succ_self n),
          Option.bind_eq_some_iff.mpr ⟨_, snapFound n (Nat.lt_succ_self n), rfl⟩⟩⟩, ?_, ?_⟩
      · intro i below
        by_cases last : i = n
        · rw [last, RunningList.set_self, rest n le_rfl]
        · rw [RunningList.set_of_ne _ last]
          exact done i (by omega)
      · intro i above
        rw [RunningList.set_of_ne _ (by omega)]
        exact rest i (by omega)

def restarted (manager : BucketManager β η) (maxProtocolVersion i : Nat)
    (next : FutureBucketState β η) : Option (FutureBucketState β η) :=
  if next.hasHashes ∧ ¬ next.isLive then next.makeLive manager maxProtocolVersion (keepDeadEntries i)
  else some next

theorem restartMerges_ok {start : RunningList β η} {maxProtocolVersion : Nat} (n : Nat)
    (next : Nat → FutureBucketState β η)
    (restarts : ∀ i, i < n →
      restarted manager maxProtocolVersion i (start.mLevels i).mNextCurr = some (next i)) :
    ∃ after, start.restartMerges manager maxProtocolVersion n = some after ∧
      (∀ i, i < n → after.mLevels i = { start.mLevels i with mNextCurr := next i }) ∧
      ∀ i, n ≤ i → after.mLevels i = start.mLevels i := by
  induction n with
  | zero => exact ⟨start, rfl, fun i impossible => absurd impossible (Nat.not_lt_zero i),
      fun _ _ => rfl⟩
  | succ n ih =>
      obtain ⟨earlier, ran, done, rest⟩ := ih fun i below => restarts i (Nat.lt_succ_of_lt below)
      have last := restarts n (Nat.lt_succ_self n)
      rw [← rest n le_rfl] at last
      unfold restarted at last
      by_cases hashes : (earlier.mLevels n).mNextCurr.hasHashes ∧
          ¬ (earlier.mLevels n).mNextCurr.isLive
      · rw [if_pos hashes] at last
        refine ⟨earlier.set n { earlier.mLevels n with mNextCurr := next n }, ?_, ?_, ?_⟩
        · apply Option.bind_eq_some_iff.mpr
          refine ⟨earlier, ran, ?_⟩
          dsimp only
          rw [if_pos hashes]
          exact Option.bind_eq_some_iff.mpr ⟨next n, last, rfl⟩
        · intro i below
          by_cases here : i = n
          · rw [here, RunningList.set_self, rest n le_rfl]
          · rw [RunningList.set_of_ne _ here]
            exact done i (by omega)
        · intro i above
          rw [RunningList.set_of_ne _ (by omega)]
          exact rest i (by omega)
      · rw [if_neg hashes] at last
        refine ⟨earlier, ?_, ?_, ?_⟩
        · apply Option.bind_eq_some_iff.mpr
          refine ⟨earlier, ran, ?_⟩
          dsimp only
          rw [if_neg hashes]
          rfl
        · intro i below
          by_cases here : i = n
          · rw [here, ← Option.some.inj last, rest n le_rfl]
          · exact done i (by omega)
        · intro i above
          exact rest i (by omega)

theorem mapM_stored {buckets : List β} (stored : ∀ bucket ∈ buckets, Stored getHash manager bucket) :
    (buckets.map getHash).mapM manager.getBucketByHash = some buckets := by
  induction buckets with
  | nil => rfl
  | cons bucket rest ih =>
      have first := stored bucket List.mem_cons_self
      have others := ih fun other member => stored other (List.mem_cons_of_mem bucket member)
      unfold Stored at first
      rw [List.map_cons, List.mapM_cons, first, others]
      rfl

theorem restarted_saved (versioned : Versioned merger version) {bound i maxProtocolVersion : Nat}
    {level : RunningLevel β η} (within : LevelWithin version bound i level)
    (notOlder : bound ≤ maxProtocolVersion) {ready : FutureBucketState β η}
    (resolved : HistoryArchiveState.resolveReady merger mergeComplete i level.mNextCurr =
      some ready)
    (stored : ∀ bucket ∈ ready.buckets, Stored getHash manager bucket) :
    ∃ next, restarted manager maxProtocolVersion i (ready.save getHash) = some next ∧
      level.mNextCurr.isLive = next.isLive ∧
      level.mNextCurr.resolve merger = next.resolve merger ∧
      (level.mNextCurr = .FB_CLEAR → next = .FB_CLEAR) := by
  -- A bucket that is known is found by its hash.
  have output : ∀ bucket, ready = .FB_LIVE_OUTPUT bucket →
      restarted manager maxProtocolVersion i (ready.save getHash) =
        some (.FB_LIVE_OUTPUT bucket) := by
    intro bucket same
    have found : Stored getHash manager bucket := stored bucket (by
      rw [same]
      exact List.mem_singleton.mpr rfl)
    unfold Stored at found
    rw [same]
    exact Option.bind_eq_some_iff.mpr ⟨bucket, found, rfl⟩
  unfold HistoryArchiveState.resolveReady at resolved
  cases next : level.mNextCurr with
  | FB_CLEAR =>
      rw [next] at resolved
      cases resolved
      exact ⟨.FB_CLEAR, rfl, rfl, rfl, fun _ => rfl⟩
  | FB_HASH_OUTPUT hash =>
      have live := within.live
      rw [next] at live
      cases live
  | FB_HASH_INPUTS curr snap shadows =>
      have live := within.live
      rw [next] at live
      cases live
  | FB_LIVE_OUTPUT bucket =>
      rw [next] at resolved
      cases resolved
      exact ⟨_, output bucket rfl, rfl, rfl, fun impossible => by cases impossible⟩
  | FB_LIVE_INPUTS inputs =>
      rw [next] at resolved
      obtain ⟨inputsWithin, limit, keep⟩ := within.merging inputs next
      by_cases complete : mergeComplete i = true
      · rw [if_pos ⟨rfl, complete⟩] at resolved
        obtain ⟨bucket, merged, same⟩ := Option.bind_eq_some_iff.mp resolved
        cases same
        exact ⟨_, output bucket rfl, rfl, merged, fun impossible => by cases impossible⟩
      · rw [if_neg fun both => complete both.2] at resolved
        cases resolved
        have curr : Stored getHash manager inputs.mInputCurrBucket :=
          stored _ List.mem_cons_self
        have snap : Stored getHash manager inputs.mInputSnapBucket :=
          stored _ (List.mem_cons_of_mem _ List.mem_cons_self)
        have shadows : (inputs.mInputShadowBuckets.map getHash).mapM manager.getBucketByHash =
            some inputs.mInputShadowBuckets :=
          mapM_stored fun shadow member =>
            stored shadow (List.mem_cons_of_mem _ (List.mem_cons_of_mem _ member))
        unfold Stored at curr snap
        refine ⟨.FB_LIVE_INPUTS { inputs with maxProtocolVersion }, ?_, rfl, ?_, ?_⟩
        · change FutureBucketState.makeLive manager maxProtocolVersion (keepDeadEntries i)
            (.FB_HASH_INPUTS _ _ _) = _
          simp only [FutureBucketState.makeLive, curr, snap, shadows, Option.pure_def,
            Option.bind_eq_bind, Option.bind_some, keep]
        · have later := inputsWithin.mono (limit.trans notOlder)
          exact (versioned.limit inputs maxProtocolVersion inputsWithin later).symm
        · intro impossible
          cases impossible

theorem assumeState_alike (versioned : Versioned merger version) {bound maxProtocolVersion : Nat}
    {list : RunningList β η} (within : Within version bound list)
    (notOlder : bound ≤ maxProtocolVersion) {has : HistoryArchiveState β η}
    (persisted : list.persist merger getHash mergeComplete = some has)
    (intact : Intact getHash manager has)
    (collisionFree : CollisionFree getHash manager (list.savedBuckets merger mergeComplete)) :
    ∃ after, RunningList.assumeState merger manager has maxProtocolVersion = some after ∧
      Alike merger list after := by
  have listed : ∀ i, i < kNumLevels → ∀ hash, hash ∈ (has.currentBuckets i).curr ::
      (has.currentBuckets i).snap :: (has.currentBuckets i).next.getHashes getHash →
      hash ∈ has.allBuckets getHash := by
    intro i below hash member
    exact List.mem_flatMap.mpr ⟨i, List.mem_range.mpr below, member⟩
  obtain ⟨assumed, assumes, assumedLevels, -⟩ :=
    assumeLevels_ok has (RunningList.empty merger) kNumLevels
      (fun i => (list.mLevels i).mCurr) (fun i => (list.mLevels i).mSnap)
      (by
        intro i below
        obtain ⟨ready, resolved, saved⟩ := persist_levels persisted i below
        rw [saved]
        exact intact.stored collisionFree (mem_savedBuckets below resolved (by simp))
          (listed i below _ (by simp [saved])))
      (by
        intro i below
        obtain ⟨ready, resolved, saved⟩ := persist_levels persisted i below
        rw [saved]
        exact intact.stored collisionFree (mem_savedBuckets below resolved (by simp))
          (listed i below _ (by simp [saved])))
  have nexts : ∀ i, ∃ next, i < kNumLevels →
      restarted manager maxProtocolVersion i (assumed.mLevels i).mNextCurr = some next ∧
      (list.mLevels i).mNextCurr.isLive = next.isLive ∧
      (list.mLevels i).mNextCurr.resolve merger = next.resolve merger ∧
      ((list.mLevels i).mNextCurr = .FB_CLEAR → next = .FB_CLEAR) := by
    intro i
    by_cases below : i < kNumLevels
    · obtain ⟨ready, resolved, saved⟩ := persist_levels persisted i below
      have stored : ∀ bucket ∈ ready.buckets, Stored getHash manager bucket := by
        intro bucket kept
        apply intact.stored collisionFree (mem_savedBuckets below resolved
          (List.mem_cons_of_mem _ (List.mem_cons_of_mem _ kept)))
        apply listed i below
        rw [saved, save_getHashes]
        exact List.mem_cons_of_mem _ (List.mem_cons_of_mem _ (getHashes_buckets kept))
      obtain ⟨next, facts⟩ := restarted_saved versioned (within.levels i) notOlder resolved stored
      refine ⟨next, fun _ => ?_⟩
      rw [assumedLevels i below, saved]
      exact facts
    · exact ⟨.FB_CLEAR, fun impossible => absurd impossible below⟩
  choose next nextOk using nexts
  obtain ⟨after, restarts, afterLevels, -⟩ :=
    restartMerges_ok kNumLevels next fun i below => (nextOk i below).1
  refine ⟨after, ?_, ?_, ?_⟩
  · exact Option.bind_eq_some_iff.mpr ⟨assumed, assumes, restarts⟩
  · intro i below
    obtain ⟨-, live, result, -⟩ := nextOk i below
    rw [afterLevels i below, assumedLevels i below]
    exact ⟨(within.levels i).mLevel, rfl, rfl, live, result⟩
  · refine ⟨within.clear, ?_⟩
    have first : 0 < kNumLevels := by decide
    rw [afterLevels 0 first]
    exact (nextOk 0 first).2.2.2 within.clear

end Restart

/-! ### Runs -/

section Runs

variable {κ ν η : Type} [LinearOrder κ]

def RunningList.addBatches (ledger : Nat) (list : RunningList (Bucket κ ν) η) :
    List (Batch κ ν) → Option (RunningList (Bucket κ ν) η)
  | [] => some list
  | batch :: later => do
      let bucket ← (fresh batch).toOption
      let next ← list.addBatch (bucketMerger κ ν) (ledger + 1) batch.currLedgerProtocol bucket
      addBatches (ledger + 1) next later

theorem Alike.addBatches {list other : RunningList (Bucket κ ν) η}
    (alike : Alike (bucketMerger κ ν) list other) (ledger : Nat) (batches : List (Batch κ ν)) :
    Option.Rel (Alike (bucketMerger κ ν)) (list.addBatches ledger batches)
      (other.addBatches ledger batches) := by
  induction batches generalizing ledger list other with
  | nil => exact Option.Rel.some alike
  | cons batch later ih =>
      unfold RunningList.addBatches
      cases (fresh batch).toOption with
      | none => exact Option.Rel.none
      | some bucket =>
          apply rel_bind (alike.addBatch (ledger + 1) batch.currLedgerProtocol bucket)
          intro next nextOther same
          exact ih same (ledger + 1)

theorem Within.addBatches {list after : RunningList (Bucket κ ν) η} {bound ledger : Nat}
    {batches : List (Batch κ ν)} (within : Within metadata bound list)
    (later : ∀ batch ∈ batches, bound ≤ batch.currLedgerProtocol)
    (nondecreasing : batches.Pairwise fun first second =>
      first.currLedgerProtocol ≤ second.currLedgerProtocol)
    (added : list.addBatches ledger batches = some after) {last : Nat} (start : bound ≤ last)
    (notAfter : ∀ batch ∈ batches, batch.currLedgerProtocol ≤ last) : Within metadata last after := by
  induction batches generalizing list bound ledger with
  | nil =>
      cases added
      exact within.mono start
  | cons batch rest ih =>
      obtain ⟨bucket, made, added⟩ := Option.bind_eq_some_iff.mp added
      obtain ⟨next, first, added⟩ := Option.bind_eq_some_iff.mp added
      obtain ⟨restLater, restNondecreasing⟩ := List.pairwise_cons.mp nondecreasing
      have older : metadata bucket ≤ batch.currLedgerProtocol := by
        cases ran : fresh batch with
        | error fault =>
            rw [ran] at made
            cases made
        | ok result =>
            rw [ran] at made
            cases made
            exact fresh_metadata ran
      have nextWithin := (within.mono (later batch List.mem_cons_self)).addBatch
        (bucketMerger_versioned κ ν) older first
      exact ih nextWithin restLater restNondecreasing added (notAfter batch List.mem_cons_self)
        fun other member => notAfter other (List.mem_cons_of_mem batch member)

/-- A bucket list that is saved with a ledger and restarted goes on as the one that was not: with
the same buckets, and so the same hash, after any further batches. -/
theorem restart_transparent (getHash : Bucket κ ν → η) (sha256 : List η → η)
    (manager : BucketManager (Bucket κ ν) η) (earlier : List (Batch κ ν))
    (nondecreasing : earlier.Pairwise fun first second =>
      first.currLedgerProtocol ≤ second.currLedgerProtocol)
    (list : RunningList (Bucket κ ν) η)
    (ran : (RunningList.empty (bucketMerger κ ν)).addBatches 0 earlier = some list)
    (mergeComplete : Nat → Bool) (has : HistoryArchiveState (Bucket κ ν) η)
    (persisted : list.persist (bucketMerger κ ν) getHash mergeComplete = some has)
    (intact : Intact getHash manager has)
    (collisionFree : CollisionFree getHash manager
      (list.savedBuckets (bucketMerger κ ν) mergeComplete))
    (maxProtocolVersion : Nat)
    (notOlder : ∀ batch ∈ earlier, batch.currLedgerProtocol ≤ maxProtocolVersion) :
    ∃ restored,
      RunningList.assumeState (bucketMerger κ ν) manager has maxProtocolVersion = some restored ∧
      ∀ later : List (Batch κ ν), Option.Rel
        (fun uninterrupted resumed =>
          (∀ i, i < kNumLevels →
            (uninterrupted.mLevels i).mCurr = (resumed.mLevels i).mCurr ∧
            (uninterrupted.mLevels i).mSnap = (resumed.mLevels i).mSnap) ∧
          uninterrupted.getListHash getHash sha256 = resumed.getListHash getHash sha256)
        (list.addBatches earlier.length later) (restored.addBatches earlier.length later) := by
  have within : Within metadata maxProtocolVersion list :=
    (empty_within (bucketMerger_versioned κ ν)).addBatches (fun _ _ => Nat.zero_le _)
      nondecreasing ran (Nat.zero_le _) notOlder
  obtain ⟨restored, assumed, alike⟩ :=
    assumeState_alike (bucketMerger_versioned κ ν) within le_rfl persisted intact collisionFree
  refine ⟨restored, assumed, ?_⟩
  intro later
  apply rel_mono (alike.addBatches earlier.length later)
  intro uninterrupted resumed same
  refine ⟨fun i below => ⟨(same.levels i below).curr, (same.levels i below).snap⟩, ?_⟩
  unfold RunningList.getListHash
  congr 1
  apply List.map_congr_left
  intro i member
  have below := List.mem_range.mp member
  rw [(same.levels i below).curr, (same.levels i below).snap]

/-- Nine ledgers, the last one after an upgrade to version 11. -/
def upgradeBatches : List (Batch Nat Nat) :=
  (List.range 9).map fun i =>
    { currLedgerProtocol := if i < 8 then 10 else 11
      initEntries := [(i, 5)], liveEntries := if i = 0 then [] else [(i - 1, 6)], deadEntries := [] }

def digest (bucket : Bucket Nat Nat) : BitVec 32 :=
  bucket.foldl (fun digest entry => digest * 31 + match entry with
    | .METAENTRY ledgerVersion => BitVec.ofNat 32 (4 * ledgerVersion)
    | .LIVEENTRY key entry => BitVec.ofNat 32 (4 * (key + 64 * entry) + 1)
    | .DEADENTRY key => BitVec.ofNat 32 (4 * key + 2)
    | .INITENTRY key entry => BitVec.ofNat 32 (4 * (key + 64 * entry) + 3)) 0

def directory (buckets : List (Bucket Nat Nat)) : BucketManager (Bucket Nat Nat) (BitVec 32) where
  getBucketByHash hash := buckets.find? fun bucket => digest bucket = hash

theorem directory_found {buckets : List (Bucket Nat Nat)} {hash : BitVec 32}
    {bucket : Bucket Nat Nat} (found : (directory buckets).getBucketByHash hash = some bucket) :
    bucket ∈ buckets ∧ digest bucket = hash := by
  unfold directory at found
  exact ⟨List.mem_of_find?_eq_some found, of_decide_eq_true (List.find?_some found :)⟩

/-- The merges of two levels were started with version 10. The first is done, and the second is
restarted with version 11 from the files of the buckets. -/
theorem restart_transparent_upgrade :
    ∃ (list restored : RunningList (Bucket Nat Nat) (BitVec 32)) (has : _),
      (RunningList.empty (bucketMerger Nat Nat)).addBatches 0 upgradeBatches = some list ∧
      (list.mLevels 1).mNextCurr.isMerging = true ∧ (list.mLevels 2).mNextCurr.isMerging = true ∧
      list.persist (bucketMerger Nat Nat) digest (fun i => i = 1) = some has ∧
      RunningList.assumeState (bucketMerger Nat Nat)
        (directory (list.savedBuckets (bucketMerger Nat Nat) fun i => i = 1)) has 11 =
          some restored ∧
      ∀ later : List (Batch Nat Nat), Option.Rel
        (fun uninterrupted resumed => (uninterrupted.mLevels 1).mCurr = (resumed.mLevels 1).mCurr ∧
          (uninterrupted.mLevels 2).mCurr = (resumed.mLevels 2).mCurr)
        (list.addBatches 9 later) (restored.addBatches 9 later) := by
  have runs : ((RunningList.empty (bucketMerger Nat Nat)).addBatches 0 upgradeBatches).any
      (fun list : RunningList (Bucket Nat Nat) (BitVec 32) =>
        let saved := list.savedBuckets (bucketMerger Nat Nat) fun i => i = 1
        ((list.mLevels 1).mNextCurr.isMerging && (list.mLevels 2).mNextCurr.isMerging) &&
          ((list.persist (bucketMerger Nat Nat) digest fun i => i = 1).any fun has =>
            (has.allBuckets digest).all fun hash =>
              ((directory saved).getBucketByHash hash).isSome) &&
          saved.all fun bucket => saved.all fun stored => digest stored = digest bucket →
            stored = bucket) = true := by
    decide +kernel
  rw [Option.any_eq_true] at runs
  obtain ⟨list, ran, facts⟩ := runs
  simp only [Bool.and_eq_true, List.all_eq_true, Option.any_eq_true, decide_eq_true_eq] at facts
  obtain ⟨⟨⟨first, second⟩, has, persisted, complete⟩, distinct⟩ := facts
  have intact : Intact digest
      (directory (list.savedBuckets (bucketMerger Nat Nat) fun i => i = 1)) has :=
    ⟨complete, fun hash bucket found => (directory_found found).2⟩
  obtain ⟨restored, assumed, goesOn⟩ := restart_transparent digest List.sum _ upgradeBatches
    (by decide) list ran (fun i => i = 1) has persisted intact
    (fun bucket saved hash stored found same =>
      distinct bucket saved stored (directory_found found).1 same)
    11 (by decide)
  refine ⟨list, restored, has, ran, first, second, persisted, assumed, ?_⟩
  intro later
  apply rel_mono (goesOn later)
  intro uninterrupted resumed same
  exact ⟨(same.1 1 (by decide)).1, (same.1 2 (by decide)).1⟩

end Runs

end ViiCore.Bucket
