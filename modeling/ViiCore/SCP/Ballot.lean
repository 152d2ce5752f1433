import Mathlib.Order.Lattice
import Mathlib.Order.BoundedOrder.Basic
import Mathlib.Data.Prod.Lex
import ViiCore.SCP.QuorumSet

/-!
Ballots and ballot statements with the comparisons of `BallotProtocol.cpp`.

A value is an opaque byte string. The protocol compares values, tests them for
equality and treats the empty string as "no value", so the model keeps an arbitrary
linear order whose least element `⊥` is the empty string.
-/

namespace ViiCore.SCP

structure SCPBallot (Value : Type) where
  counter : Nat
  value : Value
  deriving DecidableEq

variable {NodeID Hash Value : Type}

theorem SCPBallot.toLex_injective :
    Function.Injective (fun ballot : SCPBallot Value => toLex (ballot.counter, ballot.value)) := by
  rintro ⟨leftCounter, leftValue⟩ ⟨rightCounter, rightValue⟩ same
  have pairs : (leftCounter, leftValue) = (rightCounter, rightValue) := toLex.injective same
  cases pairs
  rfl

/-- The order `std::set<SCPBallot>` uses: counter first, then value. -/
instance [LinearOrder Value] : LinearOrder (SCPBallot Value) :=
  LinearOrder.lift' (fun ballot => toLex (ballot.counter, ballot.value)) SCPBallot.toLex_injective

section Compare

variable [LinearOrder Value]

theorem SCPBallot.le_iff {left right : SCPBallot Value} :
    left ≤ right ↔ left.counter < right.counter ∨
      left.counter = right.counter ∧ left.value ≤ right.value :=
  Prod.Lex.toLex_le_toLex

theorem SCPBallot.lt_iff {left right : SCPBallot Value} :
    left < right ↔ left.counter < right.counter ∨
      left.counter = right.counter ∧ left.value < right.value :=
  Prod.Lex.toLex_lt_toLex

def compareBallots (b1 b2 : SCPBallot Value) : Int :=
  if b1.counter < b2.counter then -1
  else if b2.counter < b1.counter then 1
  else if b1.value < b2.value then -1
  else if b2.value < b1.value then 1
  else 0

def areBallotsCompatible (b1 b2 : SCPBallot Value) : Bool :=
  decide (b1.value = b2.value)

def areBallotsLessAndIncompatible (b1 b2 : SCPBallot Value) : Bool :=
  decide (compareBallots b1 b2 ≤ 0) && !areBallotsCompatible b1 b2

def areBallotsLessAndCompatible (b1 b2 : SCPBallot Value) : Bool :=
  decide (compareBallots b1 b2 ≤ 0) && areBallotsCompatible b1 b2

/-- The overload on `std::unique_ptr`: a null pointer is below every ballot. -/
def compareOptionalBallots : Option (SCPBallot Value) → Option (SCPBallot Value) → Int
  | some b1, some b2 => compareBallots b1 b2
  | some _, none => 1
  | none, some _ => -1
  | none, none => 0

theorem compareBallots_lt_zero (b1 b2 : SCPBallot Value) : compareBallots b1 b2 < 0 ↔ b1 < b2 := by
  rw [SCPBallot.lt_iff]
  unfold compareBallots
  split_ifs with h1 h2 h3 h4 <;> simp <;> grind

theorem compareBallots_eq_zero (b1 b2 : SCPBallot Value) : compareBallots b1 b2 = 0 ↔ b1 = b2 := by
  rcases b1 with ⟨c1, v1⟩
  rcases b2 with ⟨c2, v2⟩
  simp only [SCPBallot.mk.injEq]
  unfold compareBallots
  split_ifs with h1 h2 h3 h4 <;> simp <;> grind

theorem compareBallots_le_zero (b1 b2 : SCPBallot Value) : compareBallots b1 b2 ≤ 0 ↔ b1 ≤ b2 := by
  rw [le_iff_lt_or_eq, le_iff_lt_or_eq, compareBallots_lt_zero, compareBallots_eq_zero]

theorem compareBallots_pos (b1 b2 : SCPBallot Value) : 0 < compareBallots b1 b2 ↔ b2 < b1 := by
  rw [← not_le, compareBallots_le_zero, not_le]

theorem compareBallots_nonneg (b1 b2 : SCPBallot Value) : 0 ≤ compareBallots b1 b2 ↔ b2 ≤ b1 := by
  rw [← not_lt, compareBallots_lt_zero, not_lt]

theorem areBallotsCompatible_iff (b1 b2 : SCPBallot Value) :
    areBallotsCompatible b1 b2 = true ↔ b1.value = b2.value := by
  simp [areBallotsCompatible]

theorem areBallotsLessAndCompatible_iff (b1 b2 : SCPBallot Value) :
    areBallotsLessAndCompatible b1 b2 = true ↔ b1 ≤ b2 ∧ b1.value = b2.value := by
  simp [areBallotsLessAndCompatible, areBallotsCompatible, compareBallots_le_zero]

theorem areBallotsLessAndIncompatible_iff (b1 b2 : SCPBallot Value) :
    areBallotsLessAndIncompatible b1 b2 = true ↔ b1 ≤ b2 ∧ b1.value ≠ b2.value := by
  simp [areBallotsLessAndIncompatible, areBallotsCompatible, compareBallots_le_zero]

theorem SCPBallot.counter_le {left right : SCPBallot Value} (ordered : left ≤ right) :
    left.counter ≤ right.counter := by
  rcases SCPBallot.le_iff.mp ordered with below | ⟨same, _⟩
  · exact Nat.le_of_lt below
  · exact Nat.le_of_eq same

theorem SCPBallot.le_iff_counter {left right : SCPBallot Value} (same : left.value = right.value) :
    left ≤ right ↔ left.counter ≤ right.counter := by
  rw [SCPBallot.le_iff, same]
  simp only [le_refl, and_true]
  omega

@[simp] theorem SCPBallot.mk_le_mk (m n : Nat) (value : Value) :
    (⟨m, value⟩ : SCPBallot Value) ≤ ⟨n, value⟩ ↔ m ≤ n :=
  SCPBallot.le_iff_counter rfl

end Compare

/-! ### Statements -/

/-- The pledges a ballot statement carries. Nomination statements are dispatched to the
nomination protocol by `Slot::processEnvelope` and never reach this module. -/
inductive SCPPledges (Hash Value : Type) where
  | prepare (quorumSetHash : Hash) (ballot : SCPBallot Value)
      (prepared preparedPrime : Option (SCPBallot Value)) (nC nH : Nat)
  | confirm (ballot : SCPBallot Value) (nPrepared nCommit nH : Nat) (quorumSetHash : Hash)
  | externalize (commit : SCPBallot Value) (nH : Nat) (commitQuorumSetHash : Hash)
  deriving DecidableEq

/-- Envelopes add a signature that is a function of the statement, so statements stand
for envelopes. -/
structure SCPStatement (NodeID Hash Value : Type) where
  nodeID : NodeID
  slotIndex : Nat
  pledges : SCPPledges Hash Value
  deriving DecidableEq

inductive SCPStatementType where
  | SCP_ST_PREPARE
  | SCP_ST_CONFIRM
  | SCP_ST_EXTERNALIZE
  deriving DecidableEq

def SCPStatementType.toNat : SCPStatementType → Nat
  | .SCP_ST_PREPARE => 0
  | .SCP_ST_CONFIRM => 1
  | .SCP_ST_EXTERNALIZE => 2

def SCPPledges.type : SCPPledges Hash Value → SCPStatementType
  | .prepare .. => .SCP_ST_PREPARE
  | .confirm .. => .SCP_ST_CONFIRM
  | .externalize .. => .SCP_ST_EXTERNALIZE

section Order

variable [LinearOrder Value]

def isNewerPledges : SCPPledges Hash Value → SCPPledges Hash Value → Bool
  | .externalize .., .externalize .. => false
  | .confirm oldBallot oldPrepared _ oldH _, .confirm ballot nPrepared _ nH _ =>
      let compBallot := compareBallots oldBallot ballot
      if compBallot < 0 then true
      else if compBallot = 0 then
        if oldPrepared = nPrepared then decide (oldH < nH)
        else decide (oldPrepared < nPrepared)
      else false
  | .prepare _ oldBallot oldPrepared oldPrime _ oldH, .prepare _ ballot prepared prime _ nH =>
      let compBallot := compareBallots oldBallot ballot
      if compBallot < 0 then true
      else if compBallot = 0 then
        let compPrepared := compareOptionalBallots oldPrepared prepared
        if compPrepared < 0 then true
        else if compPrepared = 0 then
          let compPrime := compareOptionalBallots oldPrime prime
          if compPrime < 0 then true
          else if compPrime = 0 then decide (oldH < nH)
          else false
        else false
      else false
  | oldPledges, pledges => decide (oldPledges.type.toNat < pledges.type.toNat)

def statementBallotCounter : SCPPledges Hash Value → Nat
  | .prepare _ ballot .. => ballot.counter
  | .confirm ballot .. => ballot.counter
  | .externalize .. => UINT32_MAX

def getWorkingBallot : SCPPledges Hash Value → SCPBallot Value
  | .prepare _ ballot .. => ballot
  | .confirm ballot _ nCommit _ _ => ⟨nCommit, ballot.value⟩
  | .externalize commit .. => commit

def hasPreparedBallot (ballot : SCPBallot Value) : SCPPledges Hash Value → Bool
  | .prepare _ _ prepared preparedPrime _ _ =>
      prepared.any (areBallotsLessAndCompatible ballot) ||
        preparedPrime.any (areBallotsLessAndCompatible ballot)
  | .confirm stBallot nPrepared _ _ _ =>
      areBallotsLessAndCompatible ballot ⟨nPrepared, stBallot.value⟩
  | .externalize commit .. => areBallotsCompatible ballot commit

/-- The `voted` predicate of `attemptPreparedAccept`. -/
def votedPrepared (ballot : SCPBallot Value) : SCPPledges Hash Value → Bool
  | .prepare _ stBallot _ _ _ _ => areBallotsLessAndCompatible ballot stBallot
  | .confirm stBallot _ _ _ _ => areBallotsCompatible ballot stBallot
  | .externalize commit .. => areBallotsCompatible ballot commit

def commitPredicate (ballot : SCPBallot Value) (check : Nat × Nat) : SCPPledges Hash Value → Bool
  | .prepare .. => false
  | .confirm stBallot _ nCommit nH _ =>
      areBallotsCompatible ballot stBallot && decide (nCommit ≤ check.1 ∧ check.2 ≤ nH)
  | .externalize commit .. =>
      areBallotsCompatible ballot commit && decide (commit.counter ≤ check.1)

/-- The `voted` predicate of `attemptAcceptCommit`. -/
def votedCommit (ballot : SCPBallot Value) (check : Nat × Nat) : SCPPledges Hash Value → Bool
  | .prepare _ stBallot _ _ nC nH =>
      areBallotsCompatible ballot stBallot && decide (nC ≠ 0) &&
        decide (nC ≤ check.1 ∧ check.2 ≤ nH)
  | .confirm stBallot _ nCommit _ _ =>
      areBallotsCompatible ballot stBallot && decide (nCommit ≤ check.1)
  | .externalize commit .. =>
      areBallotsCompatible ballot commit && decide (commit.counter ≤ check.1)

end Order

end ViiCore.SCP
