import Mathlib.Tactic.Common

/-!
Works and their states (`work/BasicWork.cpp`).

A work is a node of a tree: a plain one has no children, a `Work` has those it has added. The list
of children is kept in two parts, which meet where the iterator stands. An illegal transition, a
failed assertion and an exception have no result.
-/

namespace ViiCore.Work

inductive InternalState where
  | PENDING
  | RUNNING
  | WAITING
  | ABORTING
  | ABORTED
  | RETRYING
  | SUCCESS
  | FAILURE
  deriving DecidableEq

inductive State where
  | WORK_RUNNING
  | WORK_WAITING
  | WORK_ABORTED
  | WORK_SUCCESS
  | WORK_FAILURE
  deriving DecidableEq

def ALLOWED_TRANSITIONS : List (InternalState × InternalState) :=
  [(.PENDING, .RUNNING),
    (.PENDING, .ABORTING),
    (.RUNNING, .RUNNING),
    (.RUNNING, .WAITING),
    (.RUNNING, .SUCCESS),
    (.RUNNING, .FAILURE),
    (.RUNNING, .RETRYING),
    (.RUNNING, .ABORTING),
    (.WAITING, .RUNNING),
    (.WAITING, .ABORTING),
    (.RETRYING, .WAITING),
    (.SUCCESS, .PENDING),
    (.FAILURE, .PENDING),
    (.ABORTING, .ABORTING),
    (.ABORTING, .ABORTED),
    (.ABORTED, .PENDING)]

/-- How a child has ended, and whether it had been shut down on its own. -/
structure Ending where
  state : InternalState
  shutDown : Bool
  deriving DecidableEq

/-- The fields of a work, and three that only record what happened: whether it was shut down on its
own, and, since the last reset, how many children were added and how those that are gone ended. -/
structure BasicWork where
  isWork : Bool
  mState : InternalState
  mRetries : Nat
  mMaxRetries : Nat
  mRetryTimer : Bool
  mAbortChildrenButNotSelf : Bool
  shutDown : Bool
  added : Nat
  endings : List Ending
  deriving DecidableEq

/-- `mNextChild` points to the first of the upcoming children. -/
structure Node where
  basic : BasicWork
  mVisited : List Node
  mUpcoming : List Node

namespace Node

def new (isWork : Bool) (mMaxRetries : Nat) : Node :=
  { basic :=
      { isWork
        mState := .PENDING
        mRetries := 0
        mMaxRetries
        mRetryTimer := false
        mAbortChildrenButNotSelf := false
        shutDown := false
        added := 0
        endings := [] }
    mVisited := []
    mUpcoming := [] }

def mChildren (n : Node) : List Node :=
  n.mVisited ++ n.mUpcoming

/-! ### States -/

def isDone (n : Node) : Bool :=
  n.basic.mState = .SUCCESS ∨ n.basic.mState = .FAILURE ∨ n.basic.mState = .ABORTED

def isAborting (n : Node) : Bool :=
  n.basic.mState = .ABORTING

def getState (n : Node) : State :=
  match n.basic.mState with
  | .RUNNING | .PENDING | .ABORTING => .WORK_RUNNING
  | .WAITING | .RETRYING => .WORK_WAITING
  | .SUCCESS => .WORK_SUCCESS
  | .FAILURE => .WORK_FAILURE
  | .ABORTED => .WORK_ABORTED

def getInternalState : State → InternalState
  | .WORK_SUCCESS => .SUCCESS
  | .WORK_FAILURE => .FAILURE
  | .WORK_WAITING => .WAITING
  | .WORK_RUNNING => .RUNNING
  | .WORK_ABORTED => .ABORTED

def allChildrenSuccessful (n : Node) : Bool :=
  n.mChildren.all fun w => w.getState = .WORK_SUCCESS

def allChildrenDone (n : Node) : Bool :=
  n.mChildren.all isDone

def anyChildRunning (n : Node) : Bool :=
  n.mChildren.any fun w => w.getState = .WORK_RUNNING

def anyChildRaiseFailure (n : Node) : Bool :=
  n.mChildren.any fun w => w.getState = .WORK_FAILURE

/-! ### Transitions -/

def ending (n : Node) : Ending :=
  ⟨n.basic.mState, n.basic.shutDown⟩

def clearChildren (n : Node) : Option Node :=
  if n.allChildrenDone then
    some {
      basic := { n.basic with endings := n.basic.endings ++ n.mChildren.map ending }
      mVisited := []
      mUpcoming := [] }
  else none

def reset (n : Node) : Option Node := do
  let n ← n.clearChildren
  return {
    n with
    basic := {
      n.basic with
      mRetryTimer := false
      mAbortChildrenButNotSelf := false
      added := 0
      endings := [] } }

def assertValidTransition (before after : InternalState) : Option Unit :=
  if (before, after) ∈ ALLOWED_TRANSITIONS then some () else none

def withState (n : Node) (st : InternalState) : Node :=
  { n with basic := { n.basic with mState := st } }

def waitForRetry (n : Node) : Option Node :=
  if n.basic.mRetryTimer then none
  else do
    assertValidTransition n.basic.mState .WAITING
    return { n with basic := { n.basic with mRetryTimer := true, mState := .WAITING } }

def enterState (n : Node) (st : InternalState) : Option Node := do
  let n ←
    if n.basic.mState = .PENDING ∧ st = .RUNNING then do
      let n ← n.reset
      pure { n with basic := { n.basic with mRetries := 0 } }
    else pure n
  match st with
  | .FAILURE => return (← n.reset).withState st
  | .RETRYING => ((← n.reset).withState st).waitForRetry
  | .ABORTED => return (← n.reset).withState st
  | _ => return n.withState st

def setState (n : Node) (st : InternalState) : Option Node := do
  let st := if st = .FAILURE ∧ n.basic.mRetries < n.basic.mMaxRetries then .RETRYING else st
  assertValidTransition n.basic.mState st
  n.enterState st

/-- A work that waits runs again, and whoever started it is told. -/
def wakeUp (n : Node) : Option (Node × Bool) :=
  if n.basic.mState ≠ .WAITING then some (n, false)
  else do
    let n ← n.setState .RUNNING
    return (n, true)

mutual

/-- `ABORTING` can be entered from every state a work comes to rest in before it is done. -/
def shutdown : Node → Node
  | ⟨basic, mVisited, mUpcoming⟩ =>
      { basic := if isDone ⟨basic, [], []⟩ then basic else { basic with mState := .ABORTING }
        mVisited := shutdownChildren mVisited
        mUpcoming := shutdownChildren mUpcoming }

def shutdownChildren : List Node → List Node
  | [] => []
  | c :: rest => (if c.isDone then c else c.shutdown) :: shutdownChildren rest

end

end Node

end ViiCore.Work
