import ViiCore.Bucket.LedgerRanges

/-!
What can be said of the buckets of a list, whatever is said of a bucket and the ledgers it covers.

A list of buckets is run beside the list of the sets of ledgers. Where fresh buckets have a property
of the ledgers they cover, and merges of adjacent ledgers keep it, each bucket has it for the ledgers
of the set beside it. The merge under way into a level is known to succeed from the time it is
started.
-/

namespace ViiCore.Bucket

variable {β : Type}

section Schedule

variable (Covers : Nat → Nat → Nat → β → Prop)

/-- Buckets that cover the ledgers of a range without a gap, the newest first. -/
def Tiles (now : Nat) : List β → Nat → Nat → Prop
  | [], oldest, newest => oldest = newest
  | bucket :: rest, oldest, newest =>
      ∃ middle, Covers now middle newest bucket ∧ Tiles now rest oldest middle

variable {Covers} in
theorem Tiles.append {now oldest middle newest : Nat} {early late : List β}
    (first : Tiles Covers now late middle newest) (rest : Tiles Covers now early oldest middle) :
    Tiles Covers now (late ++ early) oldest newest := by
  induction late generalizing newest with
  | nil =>
      obtain rfl : middle = newest := first
      exact rest
  | cons bucket late ih =>
      obtain ⟨cut, covers, tiles⟩ := first
      exact ⟨cut, covers, ih tiles⟩

/-- What the property must provide: for batches up to a last ledger, the buckets that enter have it,
and merges of adjacent ranges below shadows that cover what follows succeed and have it. -/
structure Covering (merger : Merger β) (protocol : Nat → Nat) (fresh : Nat → β) (last : Nat) :
    Prop where
  later : ∀ {now next oldest newest bucket}, now ≤ next → next ≤ last →
    Covers now oldest newest bucket → Covers next oldest newest bucket
  nothing : ∀ now ledger, Covers now ledger ledger merger.empty
  moved : ∀ {now ledger bucket} other, Covers now ledger ledger bucket → Covers now other other bucket
  enters : ∀ ledger, ledger < last → Covers (ledger + 1) ledger (ledger + 1) (fresh (ledger + 1))
  merges : ∀ {ledger oldest middle newest upTo} (inputs : FutureBucket β), ledger < last →
    oldest ≤ middle → middle ≤ newest → upTo ≤ ledger + 1 →
    Covers (ledger + 1) oldest middle inputs.mInputCurrBucket →
    Covers (ledger + 1) middle newest inputs.mInputSnapBucket →
    Tiles Covers (ledger + 1) inputs.mInputShadowBuckets newest upTo →
    inputs.maxProtocolVersion = protocol (ledger + 1) →
    (inputs.keepDeadEntries = false → oldest = 0) →
    ∃ out, merger.merge inputs = some out ∧ Covers (ledger + 1) oldest newest out

def CoversSet (now : Nat) (bucket : β) (ledgers : Finset Nat) : Prop :=
  ∃ oldest newest, oldest ≤ newest ∧ ledgers = Finset.Ioc oldest newest ∧
    Covers now oldest newest bucket

variable {Covers} {merger : Merger β} {protocol : Nat → Nat} {fresh : Nat → β} {last : Nat}
  (covering : Covering Covers merger protocol fresh last)

include covering

theorem CoversSet.range {now oldest newest : Nat} {bucket : β}
    (covers : CoversSet Covers now bucket (Finset.Ioc oldest newest)) (order : oldest ≤ newest) :
    Covers now oldest newest bucket := by
  obtain ⟨low, high, ordered, same, covers⟩ := covers
  have inside (ledger : Nat) :
      (oldest < ledger ∧ ledger ≤ newest) ↔ (low < ledger ∧ ledger ≤ high) := by
    rw [← Finset.mem_Ioc, ← Finset.mem_Ioc, same]
  have lowest := inside (low + 1)
  have highest := inside high
  rcases Nat.lt_or_eq_of_le order with some | none
  · -- a range that is not empty has one pair of ends
    have first := inside (oldest + 1)
    have final := inside newest
    obtain rfl : low = oldest := by omega
    obtain rfl : high = newest := by omega
    exact covers
  · obtain rfl : low = high := by omega
    rw [← none]
    exact covering.moved oldest covers

theorem coversSet_empty (now : Nat) : CoversSet Covers now merger.empty ∅ :=
  ⟨0, 0, le_rfl, (Finset.Ioc_self 0).symm, covering.nothing now 0⟩

theorem CoversSet.later {now next : Nat} (le : now ≤ next) (within : next ≤ last) {bucket : β}
    {ledgers : Finset Nat} (covers : CoversSet Covers now bucket ledgers) :
    CoversSet Covers next bucket ledgers := by
  obtain ⟨oldest, newest, order, same, covers⟩ := covers
  exact ⟨oldest, newest, order, same, covering.later le within covers⟩

omit covering

/-! ### Levels -/

variable (Covers) (merger)

/-- Each bucket of a level covers the set beside it, and a merge under way succeeds. -/
structure Beside (now : Nat) (level : BucketLevel β) (sets : BucketLevel (Finset Nat)) : Prop where
  number : level.mLevel = sets.mLevel
  curr : CoversSet Covers now level.mCurr sets.mCurr
  snap : CoversSet Covers now level.mSnap sets.mSnap
  next : level.mNextCurr = none ∧ sets.mNextCurr = none ∨
    ∃ inputs others out, level.mNextCurr = some inputs ∧ sets.mNextCurr = some others ∧
      merger.merge inputs = some out ∧
      CoversSet Covers now out (others.mInputCurrBucket ∪ others.mInputSnapBucket)

variable {Covers} {merger} {now ledger i : Nat} {level : BucketLevel β}
  {sets other : BucketLevel (Finset Nat)}

theorem Beside.clear (beside : Beside Covers merger now level sets) (idle : sets.mNextCurr = none) :
    level.mNextCurr = none := by
  rcases beside.next with ⟨clear, -⟩ | ⟨inputs, others, out, -, isOther, -⟩
  · exact clear
  · rw [idle] at isOther
    cases isOther

include covering in
theorem Beside.later {next : Nat} (le : now ≤ next) (within : next ≤ last)
    (beside : Beside Covers merger now level sets) : Beside Covers merger next level sets where
  number := beside.number
  curr := beside.curr.later covering le within
  snap := beside.snap.later covering le within
  next := by
    rcases beside.next with clear | ⟨inputs, others, out, is, isOther, merges, covers⟩
    · exact .inl clear
    · exact .inr ⟨inputs, others, out, is, isOther, merges, covers.later covering le within⟩

include covering in
theorem Beside.snapped (beside : Beside Covers merger now level sets) :
    Beside Covers merger now (level.snap merger) (sets.snap ledgerSets) where
  number := beside.number
  curr := coversSet_empty covering now
  snap := beside.curr
  next := beside.next

theorem Beside.committed (beside : Beside Covers merger now level sets)
    (commits : sets.commit ledgerSets = some other) :
    ∃ committed, level.commit merger = some committed ∧
      Beside Covers merger now committed other := by
  unfold BucketLevel.commit at commits ⊢
  rcases beside.next with ⟨clear, clearOther⟩ | ⟨inputs, others, out, is, isOther, merges, covers⟩
  · rw [clearOther] at commits
    cases commits
    rw [clear]
    exact ⟨level, rfl, beside⟩
  · rw [isOther] at commits
    cases commits
    refine ⟨{ level with mCurr := out, mNextCurr := none }, ?_, beside.number, covers, beside.snap,
      .inl ⟨rfl, rfl⟩⟩
    rw [is]
    dsimp only
    rw [merges]
    rfl

include covering in
theorem Beside.prepared (beside : Beside Covers merger (ledger + 1) level sets)
    (within : ledger < last) {snap : β} {snaps : Finset Nat} {shadows : List β}
    {others : List (Finset Nat)} (snapCovers : CoversSet Covers (ledger + 1) snap snaps)
    (tiles : Tiles Covers (ledger + 1) shadows (newestInSnap (ledger + 1) i) ledger)
    (prepares : sets.prepare ledgerSets (ledger + 1) (protocol (ledger + 1)) snaps others =
      some other)
    (at_ : LevelAt (ledger + 1) (i + 1) other) :
    ∃ prepared, level.prepare merger (ledger + 1) (protocol (ledger + 1)) snap shadows =
      some prepared ∧ Beside Covers merger (ledger + 1) prepared other := by
  unfold BucketLevel.prepare at prepares
  split at prepares
  · cases prepares
  rename_i idle
  cases prepares
  have clear := beside.clear (Option.not_isSome_iff_eq_none.mp idle)
  have pending : PendingInto (ledger + 1) i (some (sets.startMerge ledgerSets (ledger + 1)
    (protocol (ledger + 1)) snaps others)) := at_.next
  unfold PendingInto at pending
  split at pending
  · cases pending
  obtain ⟨inputs, is, fromCurr, fromSnap⟩ := pending
  cases is
  have joined : (sets.startMerge ledgerSets (ledger + 1) (protocol (ledger + 1)) snaps
      others).mInputCurrBucket ∪ (sets.startMerge ledgerSets (ledger + 1) (protocol (ledger + 1))
        snaps others).mInputSnapBucket =
      Finset.Ioc (mergeStart (ledger + 1) i) (newestInSnap (ledger + 1) i) := by
    rw [fromCurr, fromSnap]
    exact Finset.Ioc_union_Ioc_eq_Ioc (mergeStart_le _ i) (newestBelow_le _ i)
  have fromCurrent : CoversSet Covers (ledger + 1) (level.startMerge merger (ledger + 1)
      (protocol (ledger + 1)) snap shadows).mInputCurrBucket
      (Finset.Ioc (mergeStart (ledger + 1) i) (newestBelow (ledger + 1) i)) := by
    rw [← fromCurr]
    unfold BucketLevel.startMerge
    dsimp only
    rw [beside.number]
    split
    · exact coversSet_empty covering _
    · exact beside.curr
  have bottom (dropped : keepDeadEntries level.mLevel = false) : mergeStart (ledger + 1) i = 0 := by
    have here : level.mLevel = i + 1 := beside.number.trans at_.number
    rw [here] at dropped
    have deep : ¬ i + 1 < kNumLevels - 1 := of_decide_eq_false dropped
    unfold mergeStart newestInSnap
    rw [if_neg fun inner => deep inner.1, if_neg deep]
  rw [show snaps = _ from fromSnap] at snapCovers
  obtain ⟨out, merges, covers⟩ := covering.merges
    (level.startMerge merger (ledger + 1) (protocol (ledger + 1)) snap shadows) within
    (mergeStart_le _ i) (newestBelow_le _ i) (Nat.le_succ ledger)
    (fromCurrent.range covering (mergeStart_le _ i)) (snapCovers.range covering (newestBelow_le _ i))
    tiles rfl bottom
  refine ⟨{ level with mNextCurr := some (level.startMerge merger (ledger + 1)
    (protocol (ledger + 1)) snap shadows) }, ?_, beside.number, beside.curr, beside.snap,
      .inr ⟨_, _, out, rfl, rfl, merges, _, _, ?_, joined, covers⟩⟩
  · unfold BucketLevel.prepare
    rw [clear]
    rfl
  · exact (mergeStart_le _ i).trans (newestBelow_le _ i)

/-! ### Lists -/

variable (Covers merger) in
def ListBeside (now : Nat) (list : BucketList β) (sets : BucketList (Finset Nat)) : Prop :=
  ∀ i, i < kNumLevels → Beside Covers merger now (list.mLevels i) (sets.mLevels i)

variable {list before : BucketList β} {others beforeOthers : BucketList (Finset Nat)}

theorem ListBeside.set (beside : ListBeside Covers merger now list others)
    (changed : Beside Covers merger now level sets) :
    ListBeside Covers merger now (list.set i level) (others.set i sets) := by
  intro j used
  by_cases here : j = i
  · rw [here, BucketList.set_self, BucketList.set_self]
    exact changed
  · rw [BucketList.set_of_ne _ here, BucketList.set_of_ne _ here]
    exact beside j used

include covering in
theorem ListBeside.tiles (beside : ListBeside Covers merger now list others)
    (listAt : ListAt ledger others) (levels : Nat) (used : levels ≤ kNumLevels) :
    Tiles Covers now (list.shadows levels) (newestInCurr ledger levels) ledger := by
  induction levels with
  | zero => rfl
  | succ level ih =>
      unfold BucketList.shadows at ih ⊢
      rw [List.range_succ, List.flatMap_append]
      have here := beside level used
      have curr := here.curr
      have snap := here.snap
      rw [(listAt level used).curr] at curr
      rw [(listAt level used).snap] at snap
      refine (ih (Nat.le_of_succ_le used)).append ⟨_, curr.range covering ?_, ?_⟩
      · exact newestInSnap_le ledger level
      · exact ⟨_, snap.range covering (newestBelow_le ledger level), rfl⟩

include covering in
theorem spill_beside (beside : ListBeside Covers merger (ledger + 1) list others)
    (beforeBeside : ListBeside Covers merger (ledger + 1) before beforeOthers)
    (beforeAt : ListAt ledger beforeOthers) (spilled : Spilled ledger (i + 1) others)
    (used : i + 1 ≤ kNumLevels - 1) (bound : ledger + 1 < 2 ^ 32) (within : ledger < last) :
    ∃ after afterOthers,
      BucketList.spill merger (ledger + 1) (protocol (ledger + 1)) before i list = some after ∧
      BucketList.spill ledgerSets (ledger + 1) (protocol (ledger + 1)) beforeOthers i others =
        some afterOthers ∧
      ListBeside Covers merger (ledger + 1) after afterOthers ∧ Spilled ledger i afterOthers := by
  obtain ⟨afterOthers, ran, afterSpilled⟩ :=
    spill_spilled spilled used bound (protocol (ledger + 1)) beforeOthers
  have spills := ran
  unfold BucketList.spill at spills
  by_cases should : levelShouldSpill (ledger + 1) i = true
  · rw [if_pos should] at spills
    have snapped := (beside i (by omega)).snapped covering
    have tiles := beforeBeside.tiles covering beforeAt i (by omega)
    have move := (levelShouldSpill_iff bound (by omega)).mp should
    rw [← (cuts_move move.1 move.2).2] at tiles
    obtain ⟨committedOther, commits, rest⟩ := Option.bind_eq_some_iff.mp spills
    obtain ⟨preparedOther, prepares, same⟩ := Option.bind_eq_some_iff.mp rest
    cases same
    have at_ := afterSpilled.deeper (i + 1) (Nat.lt_succ_self i) used
    rw [BucketList.set_self] at at_
    obtain ⟨committed, isCommitted, stillBeside⟩ := (beside (i + 1) (by omega)).committed commits
    obtain ⟨prepared, isPrepared, preparedBeside⟩ :=
      stillBeside.prepared covering within snapped.snap tiles prepares at_
    refine ⟨(list.set i ((list.mLevels i).snap merger)).set (i + 1) prepared, _, ?_, ran,
      (beside.set snapped).set preparedBeside, afterSpilled⟩
    unfold BucketList.spill
    rw [if_pos should]
    simp only [isCommitted, isPrepared, Option.bind_eq_bind, Option.bind_some]
    rfl
  · rw [if_neg should] at spills
    cases spills
    exact ⟨list, others, if_neg should, ran, beside, afterSpilled⟩

include covering in
theorem spillLevels_beside (beforeBeside : ListBeside Covers merger (ledger + 1) before beforeOthers)
    (beforeAt : ListAt ledger beforeOthers) (bound : ledger + 1 < 2 ^ 32) (within : ledger < last)
    (i : Nat) (used : i ≤ kNumLevels - 1)
    (beside : ListBeside Covers merger (ledger + 1) list others) (spilled : Spilled ledger i others) :
    ∃ after afterOthers,
      BucketList.spillLevels merger (ledger + 1) (protocol (ledger + 1)) before i list =
        some after ∧
      BucketList.spillLevels ledgerSets (ledger + 1) (protocol (ledger + 1)) beforeOthers i others =
        some afterOthers ∧
      ListBeside Covers merger (ledger + 1) after afterOthers ∧ Spilled ledger 0 afterOthers := by
  induction i generalizing list others with
  | zero => exact ⟨list, others, rfl, rfl, beside, spilled⟩
  | succ i ih =>
      obtain ⟨next, nextOthers, spills, spillsOthers, nextBeside, nextSpilled⟩ :=
        spill_beside covering beside beforeBeside beforeAt spilled used bound within
      unfold BucketList.spillLevels
      rw [spills, spillsOthers]
      exact ih (by omega) nextBeside nextSpilled

include covering in
theorem enters_covers (within : ledger < last)
    (beside : Beside Covers merger (ledger + 1) level sets) (first : SnappedAt ledger 0 sets) :
    ∃ prepared entered,
      level.prepare merger (ledger + 1) (protocol (ledger + 1)) (fresh (ledger + 1)) [] =
        some prepared ∧
      prepared.commit merger = some { level with mCurr := entered, mNextCurr := none } ∧
      Covers (ledger + 1) (newestInSnap (ledger + 1) 0) (ledger + 1) entered := by
  have top : level.mLevel = 0 := beside.number.trans first.number
  have clear := beside.clear first.next
  have stays : (level.startMerge merger (ledger + 1) (protocol (ledger + 1)) (fresh (ledger + 1))
      []).mInputCurrBucket = level.mCurr := by
    unfold BucketLevel.startMerge
    exact if_neg fun both => both.1 top
  have curr : Covers (ledger + 1) (newestInSnap (ledger + 1) 0) ledger level.mCurr ∧
      newestInSnap (ledger + 1) 0 ≤ ledger := by
    have covers := beside.curr
    rw [first.curr] at covers
    by_cases spills : Spills ledger 0
    · have newest : newestInSnap (ledger + 1) 0 = ledger := (cuts_move spills.1 spills.2).2
      rw [if_pos spills, ← Finset.Ioc_self ledger] at covers
      rw [newest]
      exact ⟨covers.range covering le_rfl, le_rfl⟩
    · rw [if_neg spills] at covers
      rw [(cuts_stay_of_not_spills (Nat.zero_le _) spills).2]
      exact ⟨covers.range covering (newestInSnap_le ledger 0), newestInSnap_le ledger 0⟩
  obtain ⟨covers, below⟩ := curr
  rw [← stays] at covers
  obtain ⟨out, merges, entered⟩ := covering.merges
    (level.startMerge merger (ledger + 1) (protocol (ledger + 1)) (fresh (ledger + 1)) []) within
    below (Nat.le_succ ledger) le_rfl covers (covering.enters ledger within) rfl rfl (by
      intro dropped
      change keepDeadEntries level.mLevel = false at dropped
      rw [top] at dropped
      cases dropped)
  refine ⟨{ level with mNextCurr := some (level.startMerge merger (ledger + 1)
    (protocol (ledger + 1)) (fresh (ledger + 1)) []) }, out, ?_, ?_, entered⟩
  · unfold BucketLevel.prepare
    rw [clear]
    rfl
  · unfold BucketLevel.commit
    dsimp only
    rw [merges]
    rfl

include covering in
theorem addBatch_beside (beside : ListBeside Covers merger ledger list others)
    (listAt : ListAt ledger others) (bound : ledger + 1 < 2 ^ 32) (within : ledger < last) :
    ∃ after afterOthers,
      list.addBatch merger (ledger + 1) (protocol (ledger + 1)) (fresh (ledger + 1)) = some after ∧
      ListBeside Covers merger (ledger + 1) after afterOthers ∧ ListAt (ledger + 1) afterOthers := by
  have later : ListBeside Covers merger (ledger + 1) list others :=
    fun i used => (beside i used).later covering (Nat.le_succ ledger) within
  have bottom : ¬ Spills ledger (kNumLevels - 1) := fun spills => lt_irrefl _ spills.1
  have start : Spilled ledger (kNumLevels - 1) others :=
    ⟨fun j deeper impossible => absurd impossible (Nat.not_le.mpr deeper),
      (listAt _ (by decide)).snappedAt le_rfl bottom, fun j higher => listAt j (by omega)⟩
  obtain ⟨spilled, spilledOthers, spills, spillsOthers, spilledBeside, done⟩ :=
    spillLevels_beside covering later listAt bound within (kNumLevels - 1) le_rfl later start
  obtain ⟨afterOthers, added, afterAt⟩ := addBatch_listAt listAt bound (protocol (ledger + 1))
  unfold BucketList.addBatch at added ⊢
  rw [if_neg (Nat.succ_ne_zero ledger), spillsOthers] at added
  rw [if_neg (Nat.succ_ne_zero ledger), spills]
  obtain ⟨preparedOther, prepares, commits⟩ :=
    enters done.here.number done.here.next (ledger + 1) (protocol (ledger + 1)) { ledger + 1 }
  simp only [Option.bind_eq_bind, Option.bind_some, prepares, commits] at added
  cases added
  have top := spilledBeside 0 (by decide)
  obtain ⟨prepared, entered, isPrepared, isEntered, covers⟩ :=
    enters_covers covering within top done.here
  have curr := (afterAt 0 (by decide)).curr
  rw [BucketList.set_self] at curr
  have entersBeside : Beside Covers merger (ledger + 1)
      { spilled.mLevels 0 with mCurr := entered, mNextCurr := none }
      { spilledOthers.mLevels 0 with
        mCurr := (spilledOthers.mLevels 0).mCurr ∪ { ledger + 1 }, mNextCurr := none } :=
    ⟨top.number, ⟨_, _, newestInSnap_le (ledger + 1) 0, curr, covers⟩, top.snap, .inl ⟨rfl, rfl⟩⟩
  refine ⟨_, _, ?_, spilledBeside.set entersBeside, afterAt⟩
  simp only [Option.bind_eq_bind, Option.bind_some, isPrepared, isEntered]
  rfl

include covering in
theorem addBatches_tiles (bound : last < 2 ^ 32) :
    ∃ list, BucketList.addBatches merger protocol fresh last = some list ∧
      Tiles Covers last (list.shadows kNumLevels) 0 last := by
  have run (ledger : Nat) (within : ledger ≤ last) :
      ∃ list others, BucketList.addBatches merger protocol fresh ledger = some list ∧
        ListBeside Covers merger ledger list others ∧ ListAt ledger others := by
    induction ledger with
    | zero =>
        obtain ⟨others, ran, listAt⟩ := addBatches_listAt protocol 0 (by decide)
        cases ran
        have nothing := coversSet_empty covering 0
        exact ⟨BucketList.empty merger, BucketList.empty ledgerSets, rfl,
          fun i used => ⟨rfl, nothing, nothing, .inl ⟨rfl, rfl⟩⟩, listAt⟩
    | succ ledger ih =>
        obtain ⟨list, others, ran, beside, listAt⟩ := ih (by omega)
        obtain ⟨after, afterOthers, added, afterBeside, afterAt⟩ :=
          addBatch_beside covering beside listAt (by omega) within
        refine ⟨after, afterOthers, ?_, afterBeside, afterAt⟩
        unfold BucketList.addBatches
        rw [ran]
        exact added
  obtain ⟨list, others, ran, beside, listAt⟩ := run last le_rfl
  refine ⟨list, ran, ?_⟩
  have tiles := beside.tiles covering listAt kNumLevels le_rfl
  rwa [show newestInCurr last kNumLevels = 0 from (newest_last last).1] at tiles

end Schedule

end ViiCore.Bucket
