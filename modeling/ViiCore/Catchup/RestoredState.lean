import ViiCore.Bucket.RestartMerges
import ViiCore.Catchup.AppliedBuckets

/-!
What a node that applies the buckets of an archived state ends with.

Whatever the batches, the database ends with the rows that were not undone, below the buckets that
were applied.
-/

namespace ViiCore.Catchup

open ViiCore.Bucket ViiCore.FiniteMap ViiCore.LedgerTxn ViiCore.Execution
open SortedMerge (Ascending)

variable {κ ν ρ σ η : Type}

/-! ### What the work is to leave -/

def surviving (ledger : Nat) (view : View κ ν) : View κ ν := fun key =>
  (view key).filter fun entry => entry.lastModifiedLedgerSeq < ledger

section Restored

variable (task : ApplyTask κ ν ρ η) (list : RunningList (LedgerBucket κ ν) η)

def bucketOf (hash : η) : LedgerBucket κ ν := (task.manager.getBucketByHash hash).getD []

def snapAt (level : Nat) : LedgerBucket κ ν :=
  bucketOf task (task.mApplyState.currentBuckets level).snap

def currAt (level : Nat) : LedgerBucket κ ν :=
  bucketOf task (task.mApplyState.currentBuckets level).curr

def bucketsBelow : Nat → List (LedgerBucket κ ν)
  | 0 => []
  | level + 1 => snapAt task level :: currAt task level :: bucketsBelow level

variable [DecidableEq η]

def differing (level : Nat) : List (LedgerBucket κ ν) :=
  if ApplyBucketsWork.applySnap task list level then [snapAt task level, currAt task level]
  else [currAt task level]

def oldestDiffering (level : Nat) : Nat :=
  (ApplyBucketsWork.oldestLedger task list level).toOption.getD 0

variable [LinearOrder κ]

/-- What the first levels of the archived state make of a view: nothing where the bucket list
agrees with them. From the oldest bucket that differs on, everything is undone and done anew. -/
def restored (view : View κ ν) : Nat → View κ ν
  | 0 => view
  | level + 1 =>
      if ApplyBucketsWork.applySnap task list level ∨
          ApplyBucketsWork.applyCurr task list level then
        stateOf ofRow (surviving (oldestDiffering task list level) view)
          (differing task list level ++ bucketsBelow task level)
      else restored view level

def completed (mApplying : Bool) (view : View κ ν) (levels : Nat) : View κ ν :=
  if mApplying then stateOf ofRow view (bucketsBelow task levels)
  else restored task list view levels

end Restored

/-! ### A run -/

section Runs

variable [LinearOrder κ] [DecidableEq ρ] [DecidableEq σ] [DecidableEq η]
  {schema : Schema κ ρ σ} {rand : Nat → Draws}

def LeftIn : Option (BucketApplicator κ ν) → LedgerBucket κ ν → Prop
  | none, rest => rest = []
  | some applicator, rest =>
      Standing applicator.mBucketIter rest ∧ Ascending BucketEntry.rank rest

variable {task : ApplyTask κ ν ρ η} {list : RunningList (LedgerBucket κ ν) η} {target : View κ ν}
  {work after : ApplyBucketsWork κ ν ρ η}

structure Complete (schema : Schema κ ρ σ) (task : ApplyTask κ ν ρ η)
    (list : RunningList (LedgerBucket κ ν) η) (target : View κ ν)
    (work : ApplyBucketsWork κ ν ρ η) : Prop where
  listed : work.mBucketList = list
  noSnap : work.mSnapApplicator = none
  noCurr : work.mCurrApplicator = none
  shows : ∃ view, Shows schema work.root view ∧
    completed task list work.mApplying view (work.mLevel + 1) = target

/-- The level has been started, and so many entries of its buckets are left. -/
structure Working (schema : Schema κ ρ σ) (task : ApplyTask κ ν ρ η)
    (list : RunningList (LedgerBucket κ ν) η) (target : View κ ν)
    (work : ApplyBucketsWork κ ν ρ η) (remaining : Nat) : Prop where
  listed : work.mBucketList = list
  quiet : work.mApplying = false → work.mSnapApplicator = none ∧ work.mCurrApplicator = none
  shows : ∃ view snapRest currRest, Shows schema work.root view ∧
    LeftIn work.mSnapApplicator snapRest ∧ LeftIn work.mCurrApplicator currRest ∧
      remaining = snapRest.length + currRest.length ∧
        completed task list work.mApplying
          (overlay ofRow (overlay ofRow view snapRest) currRest) work.mLevel = target

/-- The list has the buckets that the archived state names, and its merges go on. -/
structure AssumedLevel (task : ApplyTask κ ν ρ η) (level : Nat)
    (final : RunningLevel (LedgerBucket κ ν) η) : Prop where
  curr : task.manager.getBucketByHash (task.mApplyState.currentBuckets level).curr =
    some final.mCurr
  snap : task.manager.getBucketByHash (task.mApplyState.currentBuckets level).snap =
    some final.mSnap
  next : restarted task.manager task.mMaxProtocolVersion level
    (task.mApplyState.currentBuckets level).next = some final.mNextCurr

def Assumed (task : ApplyTask κ ν ρ η) (final : RunningList (LedgerBucket κ ν) η) : Prop :=
  ∀ level, level < kNumLevels → AssumedLevel task level (final.mLevels level)

variable (distinct : Function.Injective schema.primaryKey) {remaining : Nat}

include distinct

/-- What a run comes to: less is left of the level, or the next one is to be started, or all is
done. -/
inductive Outcome (schema : Schema κ ρ σ) (task : ApplyTask κ ν ρ η)
    (list : RunningList (LedgerBucket κ ν) η) (target : View κ ν) (level remaining : Nat) :
    WorkState → ApplyBucketsWork κ ν ρ η → Prop where
  | lessLeft {after : ApplyBucketsWork κ ν ρ η} (fewer : Nat) (less : fewer < remaining)
      (stands : after.mLevel = level) (busy : after.isLevelComplete = false)
      (working : Working schema task list target after fewer) :
      Outcome schema task list target level remaining .WORK_RUNNING after
  | nextLevel {after : ApplyBucketsWork κ ν ρ η} (below : after.mLevel + 1 = level)
      (complete : Complete schema task list target after) :
      Outcome schema task list target level remaining .WORK_RUNNING after
  | done {after : ApplyBucketsWork κ ν ρ η} (shows : Shows schema after.root target)
      (assumed : Assumed task after.mBucketList) :
      Outcome schema task list target level remaining .WORK_SUCCESS after

inductive Underway (schema : Schema κ ρ σ) (task : ApplyTask κ ν ρ η)
    (list : RunningList (LedgerBucket κ ν) η) (target : View κ ν)
    (work : ApplyBucketsWork κ ν ρ η) : Prop where
  | between (complete : Complete schema task list target work)
  | amid (remaining : Nat) (busy : work.isLevelComplete = false)
      (working : Working schema task list target work remaining)

omit distinct in
theorem Outcome.underway {level : Nat}
    (outcome : Outcome schema task list target level remaining .WORK_RUNNING after) :
    Underway schema task list target after := by
  cases outcome with
  | lessLeft fewer less stands busy working => exact .amid fewer busy working
  | nextLevel below complete => exact .between complete

end Runs

/-! ### A node at ledger 5 -/

def byKey : Schema Nat Nat Nat := ⟨fun _ => .OFFER, id, id⟩

end ViiCore.Catchup
