import ViiCore.Bucket.FutureBucket
import ViiCore.Bucket.Merge
import ViiCore.Catchup.VerifyLedgerChainWork
import ViiCore.Ledger.LedgerTxnRoot

/-!
Applying the buckets of an archived state to the database (`bucket/BucketApplicator.cpp`,
`catchup/ApplyBucketsWork.cpp`).

The entries of a bucket are written in batches, each through a transaction of its own. What the
work counts for its log is left out, and so is the assertion that buckets with entries have a size.
-/

namespace ViiCore.Catchup

open ViiCore.Bucket ViiCore.FiniteMap ViiCore.LedgerTxn

abbrev LedgerBucket (κ ν : Type) := Bucket κ (Row ν)

variable {κ ν ρ σ η : Type}

/-! ### Batches -/

structure BucketApplicator (κ ν : Type) where
  mMaxProtocolVersion : Nat
  mBucketIter : BucketInputIterator κ (Row ν)

namespace BucketApplicator

def create (mMaxProtocolVersion : Nat) (bucket : LedgerBucket κ ν) :
    Except Fault (BucketApplicator κ ν) := do
  let mBucketIter ← BucketInputIterator.read bucket
  if mBucketIter.mMetadata > mMaxProtocolVersion then
    throw (.runtimeError
      s!"bucket protocol version {mBucketIter.mMetadata} exceeds maxProtocolVersion {mMaxProtocolVersion}")
  else return { mMaxProtocolVersion, mBucketIter }

def unfinished (applicator : BucketApplicator κ ν) : Bool := applicator.mBucketIter.mEntry.isSome

variable [LinearOrder κ] [DecidableEq ρ] [DecidableEq σ] (schema : Schema κ ρ σ)
  (rand : Nat → Draws)

def applyEntry (stack : Stack κ ν ρ) : BucketEntry κ (Row ν) → Except Fault (Stack κ ν ρ)
  | .LIVEENTRY key row | .INITENTRY key row =>
      stack.perform schema rand
        (.createOrUpdateWithoutLoading ⟨row.lastModified, key, row.data⟩)
  | .DEADENTRY key => stack.perform schema rand (.eraseWithoutLoading key)
  | .METAENTRY _ =>
      throw (.runtimeError "Malformed bucket: unexpected non-INIT/LIVE/DEAD entry.")

/-- The loop of `advance`, with as many rounds as may follow this one. It leaves the iterator at
the entry of its last round, which the next batch applies again. -/
def advanceLoop (mMaxProtocolVersion : Nat) (stack : Stack κ ν ρ)
    (mBucketIter : BucketInputIterator κ (Row ν)) (rounds : Nat) :
    Except Fault (Stack κ ν ρ × BucketInputIterator κ (Row ν)) :=
  match mBucketIter.mEntry with
  | none => return (stack, mBucketIter)
  | some e => do
      checkProtocolLegality e mMaxProtocolVersion
      let stack ← applyEntry schema rand stack e
      match rounds with
      | 0 => return (stack, mBucketIter)
      | rounds + 1 => advanceLoop mMaxProtocolVersion stack (← mBucketIter.next) rounds

def advance (root : LedgerTxnRoot κ ν ρ) (applicator : BucketApplicator κ ν) :
    Except Fault (LedgerTxnRoot κ ν ρ × BucketApplicator κ ν) := do
  let opened ← Stack.openChild { root, levels := [] } false
  let (stack, mBucketIter) ← advanceLoop schema rand applicator.mMaxProtocolVersion opened
    applicator.mBucketIter LEDGER_ENTRY_BATCH_COMMIT_SIZE
  let committed ← stack.commit schema rand
  return (committed.root, { applicator with mBucketIter })

end BucketApplicator

def deleteObjectsModifiedOnOrAfterLedger (root : LedgerTxnRoot κ ν ρ) (ledger : Nat) :
    LedgerTxnRoot κ ν ρ :=
  { root with
    mDatabase := restrict (fun entry => entry.lastModifiedLedgerSeq < ledger) root.mDatabase
    mEntryCache := root.mEntryCache.clear }

/-! ### The work -/

structure ApplyBucketsWork (κ ν ρ η : Type) where
  root : LedgerTxnRoot κ ν ρ
  mBucketList : RunningList (LedgerBucket κ ν) η
  mApplying : Bool
  mLevel : Nat
  mSnapBucket : Option (LedgerBucket κ ν)
  mCurrBucket : Option (LedgerBucket κ ν)
  mSnapApplicator : Option (BucketApplicator κ ν)
  mCurrApplicator : Option (BucketApplicator κ ν)

/-- What the work is given: the downloaded buckets together with those of the bucket manager, the
state to apply, and the check of the invariants after a bucket. -/
structure ApplyTask (κ ν ρ η : Type) where
  manager : BucketManager (LedgerBucket κ ν) η
  getHash : LedgerBucket κ ν → η
  mApplyState : HistoryArchiveState (LedgerBucket κ ν) η
  currentLedger : Nat
  mMaxProtocolVersion : Nat
  checkOnBucketApply : LedgerTxnRoot κ ν ρ → Option (LedgerBucket κ ν) → Nat → Bool →
    Except Fault Unit

namespace ApplyBucketsWork

variable (schema : Schema κ ρ σ) (rand : Nat → Draws) (task : ApplyTask κ ν ρ η)
  (work : ApplyBucketsWork κ ν ρ η)

def isLevelComplete : Bool :=
  !work.mApplying || !(work.mSnapApplicator.isSome || work.mCurrApplicator.isSome)

def getBucket (hash : η) : Except Fault (LedgerBucket κ ν) :=
  match task.manager.getBucketByHash hash with
  | some bucket => return bucket
  | none => throw (.assertFailed "b")

def onReset : Except Fault (ApplyBucketsWork κ ν ρ η) := do
  for i in List.range kNumLevels do
    let _ ← getBucket task (task.mApplyState.currentBuckets i).snap
    let _ ← getBucket task (task.mApplyState.currentBuckets i).curr
  return { work with
    mApplying := false, mLevel := kNumLevels - 1, mSnapBucket := none, mCurrBucket := none
    mSnapApplicator := none, mCurrApplicator := none }

def startBucket (hash : η) : Except Fault (LedgerBucket κ ν × BucketApplicator κ ν) := do
  let bucket ← getBucket task hash
  return (bucket, ← BucketApplicator.create task.mMaxProtocolVersion bucket)

def assumeState : Except Fault (ApplyBucketsWork κ ν ρ η) :=
  match RunningList.assumeLevels task.manager task.mApplyState work.mBucketList kNumLevels >>=
      (RunningList.restartMerges task.manager task.mMaxProtocolVersion · kNumLevels) with
  | some mBucketList => return { work with mBucketList }
  | none => throw (.runtimeError "Missing bucket files while assuming saved BucketList state")

variable [DecidableEq η]

def applySnap (list : RunningList (LedgerBucket κ ν) η) (level : Nat) : Bool :=
  (task.mApplyState.currentBuckets level).snap ≠ task.getHash (list.mLevels level).mSnap

def applyCurr (list : RunningList (LedgerBucket κ ν) η) (level : Nat) : Bool :=
  (task.mApplyState.currentBuckets level).curr ≠ task.getHash (list.mLevels level).mCurr

def oldestLedger (list : RunningList (LedgerBucket κ ν) η) (level : Nat) : Except Fault Nat :=
  match if applySnap task list level then oldestLedgerInSnap task.currentLedger level
    else oldestLedgerInCurr task.currentLedger level with
  | some ledger => return ledger
  | none => throw (.assertFailed "ledger != 0")

variable [LinearOrder κ] [DecidableEq ρ] [DecidableEq σ]

/-- The changes from the first bucket that differs on are undone before it is applied. -/
def deleteDiffering : Except Fault (ApplyBucketsWork κ ν ρ η) :=
  if ¬ work.mApplying ∧ (applySnap task work.mBucketList work.mLevel ∨
      applyCurr task work.mBucketList work.mLevel) then do
    let ledger ← oldestLedger task work.mBucketList work.mLevel
    return { work with root := deleteObjectsModifiedOnOrAfterLedger work.root ledger }
  else return work

def startSnap : Except Fault (ApplyBucketsWork κ ν ρ η) :=
  if work.mApplying ∨ applySnap task work.mBucketList work.mLevel then do
    let (mSnapBucket, mSnapApplicator) ←
      startBucket task (task.mApplyState.currentBuckets work.mLevel).snap
    return { work with mSnapBucket, mSnapApplicator, mApplying := true }
  else return work

def startCurr : Except Fault (ApplyBucketsWork κ ν ρ η) :=
  if work.mApplying ∨ applyCurr task work.mBucketList work.mLevel then do
    let (mCurrBucket, mCurrApplicator) ←
      startBucket task (task.mApplyState.currentBuckets work.mLevel).curr
    return { work with mCurrBucket, mCurrApplicator, mApplying := true }
  else return work

def startLevel : Except Fault (ApplyBucketsWork κ ν ρ η) := do
  startCurr task (← startSnap task (← work.deleteDiffering task))

/-- Applies a batch of a bucket, and says so. A bucket without entries left is checked. -/
def runBucket (bucket : Option (LedgerBucket κ ν)) (isCurr : Bool) :
    Option (BucketApplicator κ ν) → Except Fault (LedgerTxnRoot κ ν ρ ×
      Option (LedgerBucket κ ν) × Option (BucketApplicator κ ν) × Bool)
  | none => return (work.root, bucket, none, false)
  | some applicator =>
      if applicator.unfinished then do
        let (root, applicator) ← applicator.advance schema rand work.root
        return (root, bucket, some applicator, true)
      else do
        task.checkOnBucketApply work.root bucket work.mLevel isCurr
        return (work.root, none, none, false)

def runSnap : Except Fault (ApplyBucketsWork κ ν ρ η × Bool) := do
  let (root, mSnapBucket, mSnapApplicator, advanced) ←
    work.runBucket schema rand task work.mSnapBucket false work.mSnapApplicator
  return ({ work with root, mSnapBucket, mSnapApplicator }, advanced)

def runCurr : Except Fault (ApplyBucketsWork κ ν ρ η × Bool) := do
  let (root, mCurrBucket, mCurrApplicator, advanced) ←
    work.runBucket schema rand task work.mCurrBucket true work.mCurrApplicator
  return ({ work with root, mCurrBucket, mCurrApplicator }, advanced)

def applyRound : Except Fault (WorkState × ApplyBucketsWork κ ν ρ η) := do
  let (work, advanced) ← work.runSnap schema rand task
  if advanced then return (.WORK_RUNNING, work)
  else
    let (work, advanced) ← work.runCurr schema rand task
    if advanced then return (.WORK_RUNNING, work)
    else if work.mLevel ≠ 0 then return (.WORK_RUNNING, { work with mLevel := work.mLevel - 1 })
    else return (.WORK_SUCCESS, ← work.assumeState task)

def onRun : Except Fault (WorkState × ApplyBucketsWork κ ν ρ η) := do
  let work ← if work.isLevelComplete then work.startLevel task else pure work
  work.applyRound schema rand task

def crank : Nat → ApplyBucketsWork κ ν ρ η → Except Fault (WorkState × ApplyBucketsWork κ ν ρ η)
  | 0, work => return (.WORK_RUNNING, work)
  | runs + 1, work => do
      let (state, after) ← work.onRun schema rand task
      if state = .WORK_RUNNING then crank runs after else return (state, after)

end ApplyBucketsWork

end ViiCore.Catchup
