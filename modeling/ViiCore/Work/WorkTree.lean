import ViiCore.Work.BasicWork

/-!
Works with children (`work/Work.cpp`) and runs of a tree of them.

What works do by themselves is a script: for each work on the way down a crank takes, what `onRun`
or `doWork` returns, what `onAbort` of a plain work returns, and which children `doWork` adds. It is
arbitrary but for what `doWork` owes to its children.
-/

namespace ViiCore.Work

namespace Node

/-! ### Children -/

/-- Works are created with a bound on their retries, some of them with children to come. -/
structure NewWork where
  isWork : Bool
  mMaxRetries : Nat

def startWork (child : NewWork) : Option Node :=
  (new child.isWork child.mMaxRetries).setState .RUNNING

/-- The end of the list stays the end when a child is added there. -/
def addChild (n child : Node) : Node :=
  let basic := { n.basic with added := n.basic.added + 1 }
  if n.mUpcoming.isEmpty ∧ ¬ n.mVisited.isEmpty then
    { n with basic, mVisited := n.mVisited ++ [child] }
  else { n with basic, mUpcoming := n.mUpcoming ++ [child] }

/-- The parent is woken up in case it waits. -/
def addWork (n : Node) (child : NewWork) : Option (Node × Bool) := do
  let child ← startWork child
  (n.addChild child).wakeUp

def yieldLoop (mVisited : List Node) (endings : List Ending) :
    (upcoming : List Node) → List Node × List Ending × Option (Node × List Node)
  | [] => (mVisited, endings, none)
  | next :: rest =>
      if next.getState = .WORK_RUNNING then (mVisited, endings, some (next, rest))
      else if next.isDone then yieldLoop mVisited (endings ++ [next.ending]) rest
      else yieldLoop (mVisited ++ [next]) endings rest

/-- The child that is yielded is taken out of the list; `putBack` returns it to its place. -/
def yieldNextRunningChild (n : Node) : Node × Option Node :=
  match yieldLoop n.mVisited n.basic.endings n.mUpcoming with
  | (mVisited, endings, some (next, rest)) =>
      ({ basic := { n.basic with endings }, mVisited, mUpcoming := rest }, some next)
  | (mVisited, endings, none) =>
      ({ basic := { n.basic with endings }, mVisited := [], mUpcoming := mVisited }, none)

def putBack (n child : Node) : Node :=
  { n with mVisited := n.mVisited ++ [child] }

/-! ### Cranking -/

structure Level where
  result : State
  doneAborting : Bool
  adding : List NewWork

def heedsChildren (n : Node) (result : State) : Bool :=
  (result = .WORK_SUCCESS → n.allChildrenSuccessful) ∧
    (n.anyChildRaiseFailure → result = .WORK_FAILURE) ∧
    (result = .WORK_WAITING → ¬ n.anyChildRunning)

def checkChildrenStatus (w : Node) : State :=
  if w.allChildrenSuccessful then .WORK_SUCCESS
  else if w.anyChildRaiseFailure then .WORK_FAILURE
  else if ¬ w.anyChildRunning then .WORK_WAITING
  else .WORK_RUNNING

def addMoreWork (n : Node) (adding : List NewWork) : Option Node :=
  adding.foldlM (fun n child => (n.addWork child).map Prod.fst) n

/-- `BatchWork::doWork`. How much work it adds depends on its batch. -/
def batchDoWork (n : Node) (adding : List NewWork) : Option (Node × State) :=
  if n.anyChildRaiseFailure then some (n, .WORK_FAILURE)
  else do
    let n ← n.addMoreWork adding
    if n.allChildrenSuccessful then return (n, .WORK_SUCCESS)
    else if ¬ n.anyChildRunning then return (n, .WORK_WAITING)
    else return (n, .WORK_RUNNING)

def afterDoWork (n : Node) : State → Option (Node × State)
  | .WORK_SUCCESS =>
      if n.allChildrenSuccessful then do return (← n.clearChildren, .WORK_SUCCESS) else none
  | .WORK_FAILURE =>
      if ¬ n.allChildrenDone then
        some ({
          basic := { n.basic with mAbortChildrenButNotSelf := true }
          mVisited := shutdownChildren n.mVisited
          mUpcoming := shutdownChildren n.mUpcoming }, .WORK_RUNNING)
      else some (n, .WORK_FAILURE)
  | state => some (n, state)

section Crank

variable (crankWork : Node → Option Node) (level : Level) (n : Node)

def onAbort : Option (Node × Bool) :=
  if ¬ n.basic.isWork then some (n, level.doneAborting)
  else
    match n.yieldNextRunningChild with
    | (n, some child) =>
        if ¬ child.isAborting then none
        else do
          let child ← crankWork child
          return (n.putBack child, false)
    | (n, none) => some (n, n.allChildrenDone)

def onRun : Option (Node × State) :=
  if ¬ n.basic.isWork then some (n, level.result)
  else if n.basic.mAbortChildrenButNotSelf then do
    let (n, done) ← onAbort crankWork level n
    return (n, if done then .WORK_FAILURE else .WORK_RUNNING)
  else
    match n.yieldNextRunningChild with
    | (n, some child) => do
        let child ← crankWork child
        return (n.putBack child, .WORK_RUNNING)
    | (n, none) => do
        let n ← n.addMoreWork level.adding
        if ¬ n.heedsChildren level.result then none else n.afterDoWork level.result

end Crank

def crankWork : List Level → Node → Option Node
  | [], _ => none
  | level :: below, n =>
      if n.isDone ∨ n.basic.mState = .WAITING then none
      else if n.basic.mState = .ABORTING then do
        let (n, doneAborting) ← onAbort (crankWork below) level n
        n.setState (if doneAborting then .ABORTED else .ABORTING)
      else do
        let (n, state) ← onRun (crankWork below) level n
        n.setState (getInternalState state)

/-! ### Whole trees -/

inductive Happening where
  | wakeUp
  | retryTimer
  | shutdown
  | addWork (child : NewWork)

/-- Whether the work tells its parent that it woke up. Children are added to works that are neither
done nor aborting. -/
def handle (n : Node) : Happening → Option (Node × Bool)
  | .wakeUp => n.wakeUp
  | .retryTimer =>
      if ¬ n.basic.mRetryTimer then none
      else if n.basic.mState = .WAITING then
        { n with
          basic := { n.basic with mRetries := n.basic.mRetries + 1, mRetryTimer := false } }.wakeUp
      else if n.basic.mState = .ABORTED ∨ n.isAborting then some (n, false)
      else none
  | .shutdown =>
      if n.isDone then some (n.shutdown, false)
      else some ({ n.shutdown with basic := { n.shutdown.basic with shutDown := true } }, false)
  | .addWork child =>
      if ¬ n.basic.isWork ∨ n.isAborting ∨ n.isDone then none else n.addWork child

def replaceChild (n : Node) (index : Nat) (child : Node) : Node :=
  if index < n.mVisited.length then { n with mVisited := n.mVisited.set index child }
  else { n with mUpcoming := n.mUpcoming.set (index - n.mVisited.length) child }

def happen : List Nat → Happening → Node → Option (Node × Bool)
  | [], happening, n => n.handle happening
  | index :: path, happening, n => do
      let child ← n.mChildren[index]?
      let (child, wokeUp) ← happen path happening child
      let n := n.replaceChild index child
      if wokeUp then n.wakeUp else return (n, false)

inductive Event where
  | crank (script : List Level)
  | happen (path : List Nat) (happening : Happening)

def step (root : Node) : Event → Option Node
  | .crank script => crankWork script root
  | .happen path happening => (root.happen path happening).map Prod.fst

def run (root : NewWork) (events : List Event) : Option Node := do
  events.foldlM step (← startWork root)

end Node

end ViiCore.Work
