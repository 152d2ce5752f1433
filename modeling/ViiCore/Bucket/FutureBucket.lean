import ViiCore.Bucket.BucketList

/-!
Merges that are saved and restarted (`bucket/FutureBucket.h`, `bucket/FutureBucket.cpp`, the levels
of `bucket/BucketList.cpp` with the states of their merges, `history/HistoryArchive.cpp` and
`BucketManagerImpl::assumeState`).

A merge in the background is a function of its inputs, so a live merge keeps these, and `resolve`
is where its result is waited for. Hashes are values of an arbitrary type. A computation is `none`
where an assertion fails or something throws.
-/

namespace ViiCore.Bucket

/-- The states of a `FutureBucket`, each with the members that are set in it. -/
inductive FutureBucketState (β η : Type) where
  | FB_CLEAR
  | FB_HASH_OUTPUT (mOutputBucketHash : η)
  | FB_HASH_INPUTS (mInputCurrBucketHash mInputSnapBucketHash : η)
      (mInputShadowBucketHashes : List η)
  | FB_LIVE_OUTPUT (mOutputBucket : β)
  | FB_LIVE_INPUTS (inputs : FutureBucket β)

/-- What is stored under the hash of a bucket. -/
structure BucketManager (β η : Type) where
  getBucketByHash : η → Option β

variable {β η : Type} (merger : Merger β) (getHash : β → η)

namespace FutureBucketState

def isLive : FutureBucketState β η → Bool
  | .FB_LIVE_INPUTS _ => true
  | .FB_LIVE_OUTPUT _ => true
  | _ => false

def isMerging : FutureBucketState β η → Bool
  | .FB_LIVE_INPUTS _ => true
  | _ => false

def resolve : FutureBucketState β η → Option β
  | .FB_LIVE_INPUTS inputs => merger.merge inputs
  | .FB_LIVE_OUTPUT output => some output
  | _ => none

def save : FutureBucketState β η → FutureBucketState β η
  | .FB_LIVE_INPUTS inputs =>
      .FB_HASH_INPUTS (getHash inputs.mInputCurrBucket) (getHash inputs.mInputSnapBucket)
        (inputs.mInputShadowBuckets.map getHash)
  | .FB_LIVE_OUTPUT output => .FB_HASH_OUTPUT (getHash output)
  | saved => saved

def makeLive (manager : BucketManager β η) (maxProtocolVersion : Nat) (keepDeadEntries : Bool) :
    FutureBucketState β η → Option (FutureBucketState β η)
  | .FB_HASH_OUTPUT output => do return .FB_LIVE_OUTPUT (← manager.getBucketByHash output)
  | .FB_HASH_INPUTS curr snap shadows => do
      return .FB_LIVE_INPUTS
        { mInputCurrBucket := ← manager.getBucketByHash curr
          mInputSnapBucket := ← manager.getBucketByHash snap
          mInputShadowBuckets := ← shadows.mapM manager.getBucketByHash
          maxProtocolVersion
          keepDeadEntries }
  | _ => none

def hasHashes : FutureBucketState β η → Bool
  | .FB_HASH_INPUTS _ _ _ => true
  | .FB_HASH_OUTPUT _ => true
  | _ => false

def getHashes : FutureBucketState β η → List η
  | .FB_CLEAR => []
  | .FB_HASH_OUTPUT output => [output]
  | .FB_HASH_INPUTS curr snap shadows => curr :: snap :: shadows
  | .FB_LIVE_OUTPUT output => [getHash output]
  | .FB_LIVE_INPUTS inputs =>
      getHash inputs.mInputCurrBucket :: getHash inputs.mInputSnapBucket ::
        inputs.mInputShadowBuckets.map getHash

end FutureBucketState

/-! ### Levels -/

structure RunningLevel (β η : Type) where
  mLevel : Nat
  mCurr : β
  mSnap : β
  mNextCurr : FutureBucketState β η

namespace RunningLevel

def setCurr (level : RunningLevel β η) (bucket : β) : RunningLevel β η :=
  { level with mCurr := bucket, mNextCurr := .FB_CLEAR }

def commit (level : RunningLevel β η) : Option (RunningLevel β η) :=
  if level.mNextCurr.isLive then do return level.setCurr (← level.mNextCurr.resolve merger)
  else some level

def prepare (level : RunningLevel β η) (currLedger currLedgerProtocol : Nat) (snap : β)
    (shadows : List β) : Option (RunningLevel β η) :=
  if level.mNextCurr.isMerging then none
  else
    let plain : BucketLevel β :=
      { mLevel := level.mLevel, mCurr := level.mCurr, mSnap := level.mSnap, mNextCurr := none }
    let inputs := plain.startMerge merger currLedger currLedgerProtocol snap shadows
    some { level with mNextCurr := .FB_LIVE_INPUTS inputs }

def snap (level : RunningLevel β η) : RunningLevel β η :=
  { level with mSnap := level.mCurr, mCurr := merger.empty }

end RunningLevel

structure RunningList (β η : Type) where
  mLevels : Nat → RunningLevel β η

namespace RunningList

def empty : RunningList β η where
  mLevels i :=
    { mLevel := i, mCurr := merger.empty, mSnap := merger.empty, mNextCurr := .FB_CLEAR }

def set (list : RunningList β η) (i : Nat) (level : RunningLevel β η) : RunningList β η where
  mLevels := Function.update list.mLevels i level

@[simp] theorem set_self (list : RunningList β η) (i : Nat) (level : RunningLevel β η) :
    (list.set i level).mLevels i = level := by
  simp [set]

theorem set_of_ne (list : RunningList β η) {i j : Nat} (other : j ≠ i) (level : RunningLevel β η) :
    (list.set i level).mLevels j = list.mLevels j := by
  simp [set, other]

def shadows (list : RunningList β η) (i : Nat) : List β :=
  (List.range i).flatMap fun level => [(list.mLevels level).mCurr, (list.mLevels level).mSnap]

variable (currLedger currLedgerProtocol : Nat)

def spill (before : RunningList β η) (i : Nat) (list : RunningList β η) :
    Option (RunningList β η) :=
  if levelShouldSpill currLedger i then do
    let snapped := (list.mLevels i).snap merger
    let committed ← (list.mLevels (i + 1)).commit merger
    let prepared ← committed.prepare merger currLedger currLedgerProtocol snapped.mSnap
      (before.shadows i)
    return (list.set i snapped).set (i + 1) prepared
  else some list

def spillLevels (before : RunningList β η) : Nat → RunningList β η → Option (RunningList β η)
  | 0, list => some list
  | i + 1, list => do
      spillLevels before i (← spill merger currLedger currLedgerProtocol before i list)

def addBatch (list : RunningList β η) (fresh : β) : Option (RunningList β η) :=
  if currLedger = 0 then none
  else do
    let spilled ← spillLevels merger currLedger currLedgerProtocol list (kNumLevels - 1) list
    let prepared ← (spilled.mLevels 0).prepare merger currLedger currLedgerProtocol fresh []
    return spilled.set 0 (← prepared.commit merger)

/-- The hash of a level is taken over two hashes, that of the list over the hashes of the levels. -/
def getListHash (sha256 : List η → η) (list : RunningList β η) : η :=
  sha256 ((List.range kNumLevels).map fun i =>
    sha256 [getHash (list.mLevels i).mCurr, getHash (list.mLevels i).mSnap])

end RunningList

/-! ### Saving and restarting -/

structure HistoryStateBucket (β η : Type) where
  curr : η
  next : FutureBucketState β η
  snap : η

structure HistoryArchiveState (β η : Type) where
  currentBuckets : Nat → HistoryStateBucket β η

namespace HistoryArchiveState

def ofBucketList (list : RunningList β η) : HistoryArchiveState β η where
  currentBuckets i :=
    { curr := getHash (list.mLevels i).mCurr
      next := (list.mLevels i).mNextCurr
      snap := getHash (list.mLevels i).mSnap }

/-- A merge that has finished is replaced by its result, which throws if the merge has thrown. -/
def resolveReady (mergeComplete : Nat → Bool) (i : Nat) (next : FutureBucketState β η) :
    Option (FutureBucketState β η) :=
  if next.isMerging ∧ mergeComplete i then do return .FB_LIVE_OUTPUT (← next.resolve merger)
  else some next

def resolveAnyReadyFutures (mergeComplete : Nat → Bool) (has : HistoryArchiveState β η) :
    Nat → Option (HistoryArchiveState β η)
  | 0 => some has
  | n + 1 => do
      let earlier ← has.resolveAnyReadyFutures mergeComplete n
      let next ← resolveReady merger mergeComplete n (earlier.currentBuckets n).next
      return { currentBuckets :=
        Function.update earlier.currentBuckets n { earlier.currentBuckets n with next } }

def save (has : HistoryArchiveState β η) : HistoryArchiveState β η where
  currentBuckets i := { has.currentBuckets i with next := (has.currentBuckets i).next.save getHash }

def allBuckets (has : HistoryArchiveState β η) : List η :=
  (List.range kNumLevels).flatMap fun i =>
    (has.currentBuckets i).curr :: (has.currentBuckets i).snap ::
      (has.currentBuckets i).next.getHashes getHash

end HistoryArchiveState

namespace RunningList

def persist (mergeComplete : Nat → Bool) (list : RunningList β η) :
    Option (HistoryArchiveState β η) := do
  let has ← (HistoryArchiveState.ofBucketList getHash list).resolveAnyReadyFutures merger
    mergeComplete kNumLevels
  return has.save getHash

def assumeLevels (manager : BucketManager β η) (has : HistoryArchiveState β η)
    (list : RunningList β η) : Nat → Option (RunningList β η)
  | 0 => some list
  | n + 1 => do
      let earlier ← assumeLevels manager has list n
      let curr ← manager.getBucketByHash (has.currentBuckets n).curr
      let snap ← manager.getBucketByHash (has.currentBuckets n).snap
      return earlier.set n
        { earlier.mLevels n with mCurr := curr, mSnap := snap,
                                 mNextCurr := (has.currentBuckets n).next }

def restartMerges (manager : BucketManager β η) (maxProtocolVersion : Nat)
    (list : RunningList β η) : Nat → Option (RunningList β η)
  | 0 => some list
  | n + 1 => do
      let earlier ← restartMerges manager maxProtocolVersion list n
      let level := earlier.mLevels n
      if level.mNextCurr.hasHashes ∧ ¬ level.mNextCurr.isLive then
        let next ← level.mNextCurr.makeLive manager maxProtocolVersion (keepDeadEntries n)
        return earlier.set n { level with mNextCurr := next }
      else return earlier

def assumeState (manager : BucketManager β η) (has : HistoryArchiveState β η)
    (maxProtocolVersion : Nat) : Option (RunningList β η) := do
  let assumed ← assumeLevels manager has (empty merger) kNumLevels
  restartMerges manager maxProtocolVersion assumed kNumLevels

end RunningList

end ViiCore.Bucket
