import Mathlib.Data.Finset.Basic
import Mathlib.Data.Nat.Bitwise

/-!
The levels of the bucket list (`bucket/BucketList.cpp`): when a level spills into the next
one, and how many ledgers each bucket covers.

Machine integers are natural numbers; a computation is `none` where an assertion fails, where
a merge throws, or where the `uint32_t` arithmetic of the size functions would wrap. What a
bucket is and how two are merged is a parameter.
-/

namespace ViiCore.Bucket

/-! ### Sizes -/

def kNumLevels : Nat := 11

def levelSize (level : Nat) : Nat := 1 <<< (2 * (level + 1))

def levelHalf (level : Nat) : Nat := levelSize level >>> 1

def mask (v m : Nat) : Nat := (BitVec.ofNat 32 v &&& ~~~ (BitVec.ofNat 32 m - 1)).toNat

def levelShouldSpill (ledger level : Nat) : Bool :=
  if level = kNumLevels - 1 then false
  else ledger = mask ledger (levelHalf level) ∨ ledger = mask ledger (levelSize level)

def keepDeadEntries (level : Nat) : Bool := level < kNumLevels - 1

/-- Addition of `uint32_t`, where it does not wrap. -/
def plus (left right : Nat) : Option Nat :=
  if left + right < 2 ^ 32 then some (left + right) else none

/-- Subtraction of `uint32_t`, where it does not wrap. -/
def minus (left right : Nat) : Option Nat :=
  if right ≤ left then some (left - right) else none

theorem mask_le (v m : Nat) : mask v m ≤ v := by
  unfold mask
  rw [BitVec.toNat_and]
  apply Nat.and_le_left.trans
  rw [BitVec.toNat_ofNat]
  exact Nat.mod_le v _

/-- The last ledger before this one at which the level, or the one below it, changed. -/
def previousRelevantLedger (ledger level : Nat) : Nat :=
  max (max (mask (ledger - 1) (levelHalf (level - 1))) (mask (ledger - 1) (levelSize (level - 1))))
    (max (mask (ledger - 1) (levelHalf level)) (mask (ledger - 1) (levelSize level)))

theorem previousRelevantLedger_lt {ledger : Nat} (positive : ledger ≠ 0) (level : Nat) :
    previousRelevantLedger ledger level < ledger := by
  unfold previousRelevantLedger
  have below : ∀ m, mask (ledger - 1) m < ledger := by
    intro m
    have bound := mask_le (ledger - 1) m
    omega
  exact max_lt (max_lt (below _) (below _)) (max_lt (below _) (below _))

mutual

def sizeOfCurr (ledger level : Nat) : Option Nat :=
  if _positive : ledger = 0 then none
  else if kNumLevels ≤ level then none
  else if level = 0 then some (if ledger = 1 then 1 else 1 + ledger % 2)
  else if level ≠ kNumLevels - 1 ∧ mask ledger (levelHalf level) ≠ 0 then
    let sizeDelta := 1 <<< (2 * level - 1)
    if mask ledger (levelHalf level) = ledger ∨ mask ledger (levelSize level) = ledger then
      some sizeDelta
    else if mask ledger (levelHalf (level - 1)) = ledger ∨
        mask ledger (levelSize (level - 1)) = ledger then do
      plus (← sizeOfCurr (previousRelevantLedger ledger level) level) sizeDelta
    else sizeOfCurr (previousRelevantLedger ledger level) level
  else do minus ledger (← sizeOfLevels ledger level)
termination_by (3 * level + 1, ledger)
decreasing_by
  · exact Prod.Lex.right _ (previousRelevantLedger_lt _positive level)
  · exact Prod.Lex.right _ (previousRelevantLedger_lt _positive level)
  · exact Prod.Lex.left _ _ (by omega)

def sizeOfSnap (ledger level : Nat) : Option Nat :=
  if ledger = 0 then none
  else if kNumLevels ≤ level then none
  else if level = kNumLevels - 1 then some 0
  else if mask ledger (levelSize level) ≠ 0 then some (levelHalf level)
  else do minus ledger (← plus (← sizeOfLevels ledger level) (← sizeOfCurr ledger level))
termination_by (3 * level + 2, ledger)
decreasing_by
  · exact Prod.Lex.left _ _ (by omega)
  · exact Prod.Lex.left _ _ (by omega)

def sizeOfLevels (ledger : Nat) : Nat → Option Nat
  | 0 => some 0
  | level + 1 => do
      plus (← plus (← sizeOfLevels ledger level) (← sizeOfCurr ledger level))
        (← sizeOfSnap ledger level)
termination_by level => (3 * level, ledger)
decreasing_by
  · exact Prod.Lex.left _ _ (by omega)
  · exact Prod.Lex.left _ _ (by omega)
  · exact Prod.Lex.left _ _ (by omega)

end

def countAbove (ledger : Nat) : Nat → Option Nat
  | 0 => some ledger
  | level + 1 => do
      minus (← minus (← countAbove ledger level) (← sizeOfCurr ledger level))
        (← sizeOfSnap ledger level)

def oldestLedgerInCurr (ledger level : Nat) : Option Nat := do
  let size ← sizeOfCurr ledger level
  if size = 0 then return 2 ^ 32 - 1
  else plus (← minus (← countAbove ledger level) size) 1

def oldestLedgerInSnap (ledger level : Nat) : Option Nat := do
  let size ← sizeOfSnap ledger level
  if size = 0 then return 2 ^ 32 - 1
  else plus (← countAbove ledger (level + 1)) 1

/-! ### Levels -/

structure FutureBucket (β : Type) where
  mInputCurrBucket : β
  mInputSnapBucket : β
  mInputShadowBuckets : List β
  maxProtocolVersion : Nat
  keepDeadEntries : Bool

structure Merger (β : Type) where
  empty : β
  merge : FutureBucket β → Option β

structure BucketLevel (β : Type) where
  mLevel : Nat
  mCurr : β
  mSnap : β
  /-- Not present while no merge has been started. -/
  mNextCurr : Option (FutureBucket β)

variable {β : Type} (merger : Merger β)

namespace BucketLevel

def commit (level : BucketLevel β) : Option (BucketLevel β) :=
  match level.mNextCurr with
  | none => some level
  | some next => do return { level with mCurr := ← merger.merge next, mNextCurr := none }

/-- The merge that is started: of the current bucket, unless this level will have spilled by the
time the merge is committed. -/
def startMerge (level : BucketLevel β) (currLedger currLedgerProtocol : Nat) (snap : β)
    (shadows : List β) : FutureBucket β :=
  let nextChangeLedger := (currLedger + levelHalf (level.mLevel - 1)) % 2 ^ 32
  { mInputCurrBucket :=
      if level.mLevel ≠ 0 ∧ levelShouldSpill nextChangeLedger level.mLevel then merger.empty
      else level.mCurr
    mInputSnapBucket := snap
    mInputShadowBuckets := shadows
    maxProtocolVersion := currLedgerProtocol
    keepDeadEntries := Bucket.keepDeadEntries level.mLevel }

def prepare (level : BucketLevel β) (currLedger currLedgerProtocol : Nat) (snap : β)
    (shadows : List β) : Option (BucketLevel β) :=
  if level.mNextCurr.isSome then none
  else
    let next := level.startMerge merger currLedger currLedgerProtocol snap shadows
    some { level with mNextCurr := some next }

def snap (level : BucketLevel β) : BucketLevel β :=
  { level with mSnap := level.mCurr, mCurr := merger.empty }

end BucketLevel

/-- The levels `0` to `kNumLevels - 1` are used. -/
structure BucketList (β : Type) where
  mLevels : Nat → BucketLevel β

namespace BucketList

def empty : BucketList β where
  mLevels i := { mLevel := i, mCurr := merger.empty, mSnap := merger.empty, mNextCurr := none }

def set (list : BucketList β) (i : Nat) (level : BucketLevel β) : BucketList β where
  mLevels := Function.update list.mLevels i level

@[simp] theorem set_self (list : BucketList β) (i : Nat) (level : BucketLevel β) :
    (list.set i level).mLevels i = level := by
  simp [set]

theorem set_of_ne (list : BucketList β) {i j : Nat} (other : j ≠ i) (level : BucketLevel β) :
    (list.set i level).mLevels j = list.mLevels j := by
  simp [set, other]

def shadows (list : BucketList β) (i : Nat) : List β :=
  (List.range i).flatMap fun level => [(list.mLevels level).mCurr, (list.mLevels level).mSnap]

variable (currLedger currLedgerProtocol : Nat)

/-- Level `i` spills into the next one. The shadows are those from before the batch. -/
def spill (before : BucketList β) (i : Nat) (list : BucketList β) : Option (BucketList β) :=
  if levelShouldSpill currLedger i then do
    let snapped := (list.mLevels i).snap merger
    let committed ← (list.mLevels (i + 1)).commit merger
    let prepared ← committed.prepare merger currLedger currLedgerProtocol snapped.mSnap
      (before.shadows i)
    return (list.set i snapped).set (i + 1) prepared
  else some list

def spillLevels (before : BucketList β) : Nat → BucketList β → Option (BucketList β)
  | 0, list => some list
  | i + 1, list => do
      spillLevels before i (← spill merger currLedger currLedgerProtocol before i list)

def addBatch (list : BucketList β) (fresh : β) : Option (BucketList β) :=
  if currLedger = 0 then none
  else do
    let spilled ← spillLevels merger currLedger currLedgerProtocol list (kNumLevels - 1) list
    let prepared ← (spilled.mLevels 0).prepare merger currLedger currLedgerProtocol fresh []
    return spilled.set 0 (← prepared.commit merger)

/-- The batches of the ledgers `1` to `n`, added to an empty list. -/
def addBatches (protocol : Nat → Nat) (fresh : Nat → β) : Nat → Option (BucketList β)
  | 0 => some (empty merger)
  | n + 1 => do
      addBatch merger (n + 1) (protocol (n + 1)) (← addBatches protocol fresh n) (fresh (n + 1))

end BucketList

end ViiCore.Bucket
