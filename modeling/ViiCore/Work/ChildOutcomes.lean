import Mathlib.Data.List.Forall2
import ViiCore.Work.WorkTree

/-!
What a work that succeeds can say of its children.

Between two calls of `doWork` each child is visited once, and only a child that is visited is
cranked or erased. So `doWork` gets to see every failure before the failed child is erased. A child
that was aborted is not a failure: it is erased and forgotten, and where its parent waits nobody is
told that it has to run once more.
-/

namespace ViiCore.Work

namespace Node

/-! ### Every work of a tree -/

inductive Everywhere (holds : Node → Prop) : Node → Prop where
  | node (n : Node) (own : holds n) (children : ∀ c ∈ n.mChildren, Everywhere holds c) :
      Everywhere holds n

theorem Everywhere.here {holds : Node → Prop} {n : Node} (all : Everywhere holds n) : holds n := by
  cases all with
  | node _ own _ => exact own

theorem Everywhere.inside {holds : Node → Prop} {n : Node} (all : Everywhere holds n) :
    ∀ c ∈ n.mChildren, Everywhere holds c := by
  cases all with
  | node _ _ children => exact children

theorem Everywhere.mono {holds other : Node → Prop} (implies : ∀ n, Everywhere holds n → other n)
    {n : Node} (all : Everywhere holds n) : Everywhere other n := by
  induction all with
  | node n own children ih => exact ⟨n, implies n ⟨n, own, children⟩, ih⟩

/-! ### What is kept -/

def Excused (ending : Ending) : Prop :=
  ending.state = .SUCCESS ∨ ending.state = .ABORTED ∧ ending.shutDown = true

/-- As long as a work is neither failing nor aborting: the iterator has passed every failed child
since `doWork` was called, and only its own shutdown aborts a child. -/
structure Trusted (n : Node) : Prop where
  upcoming : ∀ c ∈ n.mUpcoming, c.basic.mState ≠ .FAILURE
  aborted : ∀ c ∈ n.mChildren, c.basic.mState = .ABORTING ∨ c.basic.mState = .ABORTED →
    c.basic.shutDown = true
  endings : ∀ ending ∈ n.basic.endings, Excused ending

structure Orderly (n : Node) : Prop where
  rests : n.basic.mState ≠ .PENDING ∧ n.basic.mState ≠ .RETRYING
  plain : n.basic.isWork = false →
    n.mChildren = [] ∧ n.basic.mAbortChildrenButNotSelf = false
  counted : n.basic.added = n.basic.endings.length + n.mChildren.length
  flagged : n.basic.mAbortChildrenButNotSelf = true →
    n.basic.mState = .RUNNING ∨ n.basic.mState = .ABORTING
  trusted : n.basic.mAbortChildrenButNotSelf = false →
    n.basic.mState = .RUNNING ∨ n.basic.mState = .WAITING → Trusted n
  waiting : n.basic.mState = .WAITING → ∀ c ∈ n.mChildren, c.basic.mState ≠ .RUNNING
  done : n.isDone = true → n.mChildren = []
  success : n.basic.mState = .SUCCESS → ∀ ending ∈ n.basic.endings, Excused ending

/-! ### Transitions -/

section Transitions

variable {n m n' : Node} {st : InternalState}

theorem clearChildren_some (cleared : n.clearChildren = some m) :
    n.allChildrenDone = true ∧ m =
      ⟨{ n.basic with endings := n.basic.endings ++ n.mChildren.map ending }, [], []⟩ := by
  unfold clearChildren at cleared
  split at cleared
  · rename_i done
    exact ⟨done, (Option.some.inj cleared).symm⟩
  · cases cleared

structure Cleared (n m : Node) (st : InternalState) : Prop where
  children : m.mVisited = [] ∧ m.mUpcoming = []
  endings : m.basic.endings = [] ∧ m.basic.added = 0
  flag : m.basic.mAbortChildrenButNotSelf = false
  state : m.basic.mState = st
  same : m.basic.shutDown = n.basic.shutDown

theorem reset_some (reset : n.reset = some m) : Cleared n m n.basic.mState := by
  obtain ⟨cleared, done, reset⟩ := Option.bind_eq_some_iff.mp reset
  obtain ⟨_, rfl⟩ := clearChildren_some done
  cases reset
  exact ⟨⟨rfl, rfl⟩, ⟨rfl, rfl⟩, rfl, rfl, rfl⟩

theorem assertValidTransition_some {before after : InternalState} {done : Unit}
    (valid : assertValidTransition before after = some done) :
    (before, after) ∈ ALLOWED_TRANSITIONS := by
  unfold assertValidTransition at valid
  split at valid
  · rename_i allowed
    exact allowed
  · cases valid

inductive Transition (n n' : Node) : InternalState → Prop where
  | plain {st : InternalState} (allowed : (n.basic.mState, st) ∈ ALLOWED_TRANSITIONS)
      (kind : st = .RUNNING ∨ st = .WAITING ∨ st = .SUCCESS ∨ st = .ABORTING)
      (same : n' = n.withState st) : Transition n n' st
  | failed (running : n.basic.mState = .RUNNING) (cleared : Cleared n n' .FAILURE) :
      Transition n n' .FAILURE
  | retried (running : n.basic.mState = .RUNNING) (cleared : Cleared n n' .WAITING) :
      Transition n n' .FAILURE
  | aborted (aborting : n.basic.mState = .ABORTING) (cleared : Cleared n n' .ABORTED) :
      Transition n n' .ABORTED

theorem allowed_failure {before : InternalState}
    (allowed : (before, .FAILURE) ∈ ALLOWED_TRANSITIONS ∨
      (before, .RETRYING) ∈ ALLOWED_TRANSITIONS) : before = .RUNNING := by
  revert allowed
  cases before <;> decide

theorem allowed_aborted {before : InternalState}
    (allowed : (before, .ABORTED) ∈ ALLOWED_TRANSITIONS) : before = .ABORTING := by
  revert allowed
  cases before <;> decide

theorem enterState_some (rests : n.basic.mState ≠ .PENDING)
    (allowed : (n.basic.mState, st) ∈ ALLOWED_TRANSITIONS) (entered : n.enterState st = some n') :
    (st = .FAILURE ∧ Cleared n n' .FAILURE) ∨ (st = .RETRYING ∧ Cleared n n' .WAITING) ∨
      (st = .ABORTED ∧ Cleared n n' .ABORTED) ∨
        (st ≠ .FAILURE ∧ st ≠ .RETRYING ∧ st ≠ .ABORTED ∧ n' = n.withState st) := by
  unfold enterState at entered
  rw [if_neg fun both => rests both.1, pure_bind] at entered
  cases st with
  | FAILURE =>
      obtain ⟨m, reset, entered⟩ := Option.bind_eq_some_iff.mp entered
      cases entered
      obtain ⟨children, endings, flag, _, same⟩ := reset_some reset
      exact Or.inl ⟨rfl, children, endings, flag, rfl, same⟩
  | RETRYING =>
      obtain ⟨m, reset, entered⟩ := Option.bind_eq_some_iff.mp entered
      obtain ⟨children, endings, flag, _, same⟩ := reset_some reset
      unfold waitForRetry at entered
      split at entered
      · cases entered
      · obtain ⟨_, _, entered⟩ := Option.bind_eq_some_iff.mp entered
        cases entered
        exact Or.inr (Or.inl ⟨rfl, children, endings, flag, rfl, same⟩)
  | ABORTED =>
      obtain ⟨m, reset, entered⟩ := Option.bind_eq_some_iff.mp entered
      cases entered
      obtain ⟨children, endings, flag, _, same⟩ := reset_some reset
      exact Or.inr (Or.inr (Or.inl ⟨rfl, children, endings, flag, rfl, same⟩))
  | _ =>
      refine Or.inr (Or.inr (Or.inr ⟨by decide, by decide, by decide, ?_⟩))
      exact (Option.some.inj entered).symm

theorem setState_some (rests : n.basic.mState ≠ .PENDING)
    (asked : st ≠ .PENDING ∧ st ≠ .RETRYING) (set : n.setState st = some n') :
    Transition n n' st := by
  unfold setState at set
  obtain ⟨_, valid, entered⟩ := Option.bind_eq_some_iff.mp set
  have allowed := assertValidTransition_some valid
  have ways := enterState_some rests allowed entered
  split at allowed
  · rename_i again
    obtain ⟨rfl, more⟩ := again
    rw [if_pos ⟨rfl, more⟩] at ways
    rcases ways with ⟨other, _⟩ | ⟨_, cleared⟩ | ⟨other, _⟩ | ⟨_, other, _⟩
    · cases other
    · exact .retried (allowed_failure (Or.inr allowed)) cleared
    · cases other
    · exact absurd rfl other
  · rename_i once
    rw [if_neg once] at ways
    rcases ways with ⟨rfl, cleared⟩ | ⟨rfl, _⟩ | ⟨rfl, cleared⟩ | ⟨notFailure, _, notAborted, same⟩
    · exact .failed (allowed_failure (Or.inl allowed)) cleared
    · exact absurd rfl asked.2
    · exact .aborted (allowed_aborted allowed) cleared
    · apply Transition.plain allowed _ same
      cases st <;> simp_all

theorem wakeUp_cases {wokeUp : Bool} (woken : n.wakeUp = some (n', wokeUp)) :
    (n.basic.mState ≠ .WAITING ∧ n' = n ∧ wokeUp = false) ∨
      (n.basic.mState = .WAITING ∧ n' = n.withState .RUNNING ∧ wokeUp = true) := by
  unfold wakeUp at woken
  split at woken
  · rename_i awake
    cases woken
    exact Or.inl ⟨awake, rfl, rfl⟩
  · rename_i waits
    rw [not_not] at waits
    obtain ⟨m, set, woken⟩ := Option.bind_eq_some_iff.mp woken
    cases woken
    have transition := setState_some (by rw [waits]; decide) (by decide) set
    cases transition with
    | plain _ _ same => exact Or.inr ⟨waits, same, rfl⟩

theorem wakeUp_children {wokeUp : Bool} (woken : n.wakeUp = some (n', wokeUp)) :
    n'.mChildren = n.mChildren := by
  rcases wakeUp_cases woken with ⟨_, rfl, _⟩ | ⟨_, rfl, _⟩
  · rfl
  · rfl

end Transitions

/-! ### After a crank -/

section After

variable {n m n' : Node} {st : InternalState} {state : State}

theorem Cleared.orderly (cleared : Cleared n m st) (rests : st ≠ .PENDING ∧ st ≠ .RETRYING) :
    Everywhere Orderly m := by
  obtain ⟨⟨visited, upcoming⟩, ⟨endings, added⟩, flag, inState, _⟩ := cleared
  have none : m.mChildren = [] := by
    unfold mChildren
    rw [visited, upcoming]
    rfl
  have nobody : ∀ holds : Node → Prop, ∀ c ∈ m.mChildren, holds c := by
    intro holds c member
    rw [none] at member
    cases member
  have nothing : ∀ ending ∈ m.basic.endings, Excused ending := by
    intro ending member
    rw [endings] at member
    cases member
  refine ⟨m, ?_, nobody _⟩
  exact {
    rests := by
      rw [inState]
      exact rests
    plain := fun _ => ⟨none, flag⟩
    counted := by rw [added, endings, none]; rfl
    flagged := fun set => by
      rw [flag] at set
      cases set
    trusted := fun _ _ => by
      refine ⟨?_, nobody _, nothing⟩
      rw [upcoming]
      exact fun c member => absurd member List.not_mem_nil
    waiting := fun _ => nobody _
    done := fun _ => none
    success := fun _ => nothing }

/-- The count of children, and that plain works have none. -/
structure Tallied (n : Node) : Prop where
  plain : n.basic.isWork = false →
    n.mChildren = [] ∧ n.basic.mAbortChildrenButNotSelf = false
  counted : n.basic.added = n.basic.endings.length + n.mChildren.length

structure Ran (m : Node) (state : State) : Prop where
  running : m.basic.mState = .RUNNING
  tallied : Tallied m
  trusted : m.basic.mAbortChildrenButNotSelf = false →
    state = .WORK_RUNNING ∨ state = .WORK_WAITING → Trusted m
  waiting : state = .WORK_WAITING →
    m.basic.mAbortChildrenButNotSelf = false ∧ ∀ c ∈ m.mChildren, c.basic.mState ≠ .RUNNING
  success : state = .WORK_SUCCESS →
    m.basic.mAbortChildrenButNotSelf = false ∧ m.mChildren = [] ∧
      ∀ ending ∈ m.basic.endings, Excused ending

structure Cranked (n n' : Node) : Prop where
  running : n.basic.mState = .RUNNING →
    n'.basic.mState ≠ .ABORTING ∧ n'.basic.mState ≠ .ABORTED
  shutDown : n'.basic.shutDown = n.basic.shutDown

theorem Trusted.withState (trusted : Trusted m) (st : InternalState) : Trusted (m.withState st) :=
  ⟨trusted.upcoming, trusted.aborted, trusted.endings⟩

theorem getInternalState_kept
    (kept : state = .WORK_RUNNING ∨ state = .WORK_WAITING ∨ state = .WORK_SUCCESS) :
    (getInternalState state ≠ .PENDING ∧ getInternalState state ≠ .RETRYING) ∧
      getInternalState state ≠ .ABORTING ∧ getInternalState state ≠ .ABORTED := by
  rcases kept with rfl | rfl | rfl <;> decide

theorem Ran.withState (ran : Ran m state)
    (kept : state = .WORK_RUNNING ∨ state = .WORK_WAITING ∨ state = .WORK_SUCCESS) :
    Orderly (m.withState (getInternalState state)) where
  rests := (getInternalState_kept kept).1
  plain := ran.tallied.plain
  counted := ran.tallied.counted
  flagged set := by
    change m.basic.mAbortChildrenButNotSelf = true at set
    rcases kept with rfl | rfl | rfl
    · exact Or.inl rfl
    · rw [(ran.waiting rfl).1] at set
      cases set
    · rw [(ran.success rfl).1] at set
      cases set
  trusted unset alive := by
    rcases kept with rfl | rfl | rfl
    · exact (ran.trusted unset (Or.inl rfl)).withState _
    · exact (ran.trusted unset (Or.inr rfl)).withState _
    · rcases alive with impossible | impossible
      · cases impossible
      · cases impossible
  waiting isWaiting := by
    rcases kept with rfl | rfl | rfl
    · cases isWaiting
    · exact (ran.waiting rfl).2
    · cases isWaiting
  done isDone := by
    rcases kept with rfl | rfl | rfl
    · cases isDone
    · cases isDone
    · exact (ran.success rfl).2.1
  success isSuccess := by
    rcases kept with rfl | rfl | rfl
    · cases isSuccess
    · cases isSuccess
    · exact (ran.success rfl).2.2

theorem Ran.setState (ran : Ran m state) (children : ∀ c ∈ m.mChildren, Everywhere Orderly c)
    (set : m.setState (getInternalState state) = some n') :
    Everywhere Orderly n' ∧ Cranked m n' := by
  have rests : m.basic.mState ≠ .PENDING := by
    rw [ran.running]
    decide
  have asked : getInternalState state ≠ .PENDING ∧ getInternalState state ≠ .RETRYING := by
    cases state <;> decide
  have transition := setState_some rests asked set
  generalize target : getInternalState state = st at transition
  cases transition with
  | failed _ cleared =>
      refine ⟨cleared.orderly (by decide), fun _ => ?_, cleared.same⟩
      rw [cleared.state]
      decide
  | retried _ cleared =>
      refine ⟨cleared.orderly (by decide), fun _ => ?_, cleared.same⟩
      rw [cleared.state]
      decide
  | aborted aborting _ =>
      rw [ran.running] at aborting
      cases aborting
  | plain allowed kind same =>
      rw [same, ← target]
      have kept : state = .WORK_RUNNING ∨ state = .WORK_WAITING ∨ state = .WORK_SUCCESS := by
        subst target
        revert kind
        cases state <;> decide
      exact ⟨⟨_, ran.withState kept, children⟩, fun _ => (getInternalState_kept kept).2, rfl⟩

theorem aborting_setState (aborting : m.basic.mState = .ABORTING) (tallied : Tallied m)
    (children : ∀ c ∈ m.mChildren, Everywhere Orderly c) {done : Bool}
    (set : m.setState (if done then .ABORTED else .ABORTING) = some n') :
    Everywhere Orderly n' ∧ Cranked m n' := by
  have running : m.basic.mState ≠ .RUNNING := by
    rw [aborting]
    decide
  have rests : m.basic.mState ≠ .PENDING := by
    rw [aborting]
    decide
  have transition := setState_some rests (by cases done <;> decide) set
  cases done with
  | true =>
      cases transition with
      | aborted _ cleared =>
          exact ⟨cleared.orderly (by decide), fun impossible => absurd impossible running,
            cleared.same⟩
      | plain _ kind _ => exact absurd kind (by decide)
  | false =>
      cases transition with
      | plain _ _ same =>
          subst same
          refine ⟨⟨_, ?_, children⟩, fun impossible => absurd impossible running, rfl⟩
          exact {
            rests := ⟨InternalState.noConfusion, InternalState.noConfusion⟩
            plain := tallied.plain
            counted := tallied.counted
            flagged := fun _ => Or.inr rfl
            trusted := fun _ alive => by rcases alive with impossible | impossible <;> cases impossible
            waiting := fun impossible => by cases impossible
            done := fun impossible => by cases impossible
            success := fun impossible => by cases impossible }

end After

/-! ### The iterator -/

section Iterator

variable {n m child child' : Node}

theorem yieldLoop_kept (visited : List Node) (endings : List Ending) (upcoming : List Node) :
    ∀ c ∈ (yieldLoop visited endings upcoming).1, c ∈ visited ∨ c ∈ upcoming := by
  fun_induction yieldLoop visited endings upcoming with
  | case1 visited endings => exact fun c member => Or.inl member
  | case2 visited endings next rest running => exact fun c member => Or.inl member
  | case3 visited endings next rest idle done ih =>
      exact fun c member => (ih c member).imp_right (List.mem_cons_of_mem next)
  | case4 visited endings next rest idle unfinished ih =>
      intro c member
      rcases ih c member with before | later
      · rcases List.mem_append.mp before with old | new
        · exact Or.inl old
        · rw [List.mem_singleton.mp new]
          exact Or.inr List.mem_cons_self
      · exact Or.inr (List.mem_cons_of_mem next later)

theorem yieldLoop_erased (visited : List Node) (endings : List Ending) (upcoming : List Node) :
    ∀ ending ∈ (yieldLoop visited endings upcoming).2.1,
      ending ∈ endings ∨ ∃ c ∈ upcoming, c.isDone = true ∧ ending = c.ending := by
  fun_induction yieldLoop visited endings upcoming with
  | case1 visited endings => exact fun ending member => Or.inl member
  | case2 visited endings next rest running => exact fun ending member => Or.inl member
  | case3 visited endings next rest idle done ih =>
      intro ending member
      rcases ih ending member with before | ⟨c, later, isDone, same⟩
      · rcases List.mem_append.mp before with old | new
        · exact Or.inl old
        · exact Or.inr ⟨next, List.mem_cons_self, done, List.mem_singleton.mp new⟩
      · exact Or.inr ⟨c, List.mem_cons_of_mem next later, isDone, same⟩
  | case4 visited endings next rest idle unfinished ih =>
      intro ending member
      rcases ih ending member with before | ⟨c, later, isDone, same⟩
      · exact Or.inl before
      · exact Or.inr ⟨c, List.mem_cons_of_mem next later, isDone, same⟩

theorem yieldLoop_next (visited : List Node) (endings : List Ending) (upcoming : List Node)
    {next : Node} {rest : List Node}
    (found : (yieldLoop visited endings upcoming).2.2 = some (next, rest)) :
    next ∈ upcoming ∧ next.getState = .WORK_RUNNING ∧ ∀ c ∈ rest, c ∈ upcoming := by
  fun_induction yieldLoop visited endings upcoming with
  | case1 visited endings => cases found
  | case2 visited endings first others running =>
      cases found
      exact ⟨List.mem_cons_self, running, fun c member => List.mem_cons_of_mem _ member⟩
  | case3 visited endings first others idle done ih =>
      obtain ⟨member, running, inside⟩ := ih found
      exact ⟨List.mem_cons_of_mem first member, running,
        fun c later => List.mem_cons_of_mem first (inside c later)⟩
  | case4 visited endings first others idle unfinished ih =>
      obtain ⟨member, running, inside⟩ := ih found
      exact ⟨List.mem_cons_of_mem first member, running,
        fun c later => List.mem_cons_of_mem first (inside c later)⟩

theorem yieldLoop_counted (visited : List Node) (endings : List Ending) (upcoming : List Node) :
    (yieldLoop visited endings upcoming).2.1.length +
        ((yieldLoop visited endings upcoming).1.length +
          ((yieldLoop visited endings upcoming).2.2.elim 0 fun found => 1 + found.2.length)) =
      endings.length + (visited.length + upcoming.length) := by
  fun_induction yieldLoop visited endings upcoming with
  | case1 visited endings => rfl
  | case2 visited endings next rest running =>
      simp only [Option.elim_some, List.length_cons]
      omega
  | case3 visited endings next rest idle done ih =>
      rw [ih, List.length_append, List.length_singleton, List.length_cons]
      omega
  | case4 visited endings next rest idle unfinished ih =>
      rw [ih, List.length_append, List.length_singleton, List.length_cons]
      omega

/-- What the iterator leaves of a work: fewer children, and more endings. -/
structure Thinned (n m : Node) : Prop where
  basic : m.basic = { n.basic with endings := m.basic.endings }
  visited : ∀ c ∈ m.mVisited, c ∈ n.mChildren
  endings : ∀ ending ∈ m.basic.endings,
    ending ∈ n.basic.endings ∨ ∃ c ∈ n.mUpcoming, c.isDone = true ∧ ending = c.ending

theorem yield_some (yielded : n.yieldNextRunningChild = (m, some child)) :
    Thinned n m ∧ child ∈ n.mUpcoming ∧ child.getState = .WORK_RUNNING ∧
      (∀ c ∈ m.mUpcoming, c ∈ n.mUpcoming) ∧
      m.basic.endings.length + (m.mVisited.length + (1 + m.mUpcoming.length)) =
        n.basic.endings.length + n.mChildren.length := by
  have kept := yieldLoop_kept n.mVisited n.basic.endings n.mUpcoming
  have erased := yieldLoop_erased n.mVisited n.basic.endings n.mUpcoming
  have counted := yieldLoop_counted n.mVisited n.basic.endings n.mUpcoming
  unfold yieldNextRunningChild at yielded
  split at yielded
  · rename_i visited endings next rest looped
    obtain ⟨member, running, inside⟩ :=
      yieldLoop_next n.mVisited n.basic.endings n.mUpcoming (by rw [looped])
    rw [looped] at kept erased counted
    cases yielded
    refine ⟨⟨rfl, fun c later => List.mem_append.mpr (kept c later), erased⟩, member, running,
      inside, ?_⟩
    unfold mChildren
    rw [List.length_append]
    exact counted
  · cases yielded

theorem yield_none (yielded : n.yieldNextRunningChild = (m, none)) :
    Thinned n m ∧ m.mVisited = [] ∧ (∀ c ∈ m.mUpcoming, c ∈ n.mChildren) ∧
      m.basic.endings.length + m.mUpcoming.length =
        n.basic.endings.length + n.mChildren.length := by
  have kept := yieldLoop_kept n.mVisited n.basic.endings n.mUpcoming
  have erased := yieldLoop_erased n.mVisited n.basic.endings n.mUpcoming
  have counted := yieldLoop_counted n.mVisited n.basic.endings n.mUpcoming
  unfold yieldNextRunningChild at yielded
  split at yielded
  · cases yielded
  · rename_i visited endings looped
    rw [looped] at kept erased counted
    cases yielded
    refine ⟨⟨rfl, fun c absent => absurd absent List.not_mem_nil, erased⟩, rfl,
      fun c later => List.mem_append.mpr (kept c later), ?_⟩
    unfold mChildren
    rw [List.length_append]
    exact counted

end Iterator

/-! ### Cranks -/

section Cranks

variable {n m child child' : Node}

theorem Orderly.tallied (orderly : Orderly n) : Tallied n :=
  ⟨orderly.plain, orderly.counted⟩

theorem running_or_aborting (orderly : Orderly child) (runs : child.getState = .WORK_RUNNING) :
    child.basic.mState = .RUNNING ∨ child.basic.mState = .ABORTING := by
  have rests := orderly.rests
  unfold getState at runs
  revert runs rests
  cases child.basic.mState <;> simp

theorem isDone_cases (done : child.isDone = true) :
    child.basic.mState = .SUCCESS ∨ child.basic.mState = .FAILURE ∨
      child.basic.mState = .ABORTED :=
  of_decide_eq_true done

theorem mem_putBack {c : Node} :
    c ∈ (m.putBack child').mChildren ↔ c ∈ m.mVisited ∨ c = child' ∨ c ∈ m.mUpcoming := by
  unfold putBack mChildren
  rw [List.mem_append, List.mem_append, List.mem_singleton, or_assoc]

theorem Trusted.thinned (trusted : Trusted n) (thinned : Thinned n m) :
    ∀ ending ∈ m.basic.endings, Excused ending := by
  intro ending member
  rcases thinned.endings ending member with before | ⟨c, upcoming, done, rfl⟩
  · exact trusted.endings ending before
  · rcases isDone_cases done with success | failure | aborted
    · exact Or.inl success
    · exact absurd failure (trusted.upcoming c upcoming)
    · exact Or.inr ⟨aborted, trusted.aborted c (List.mem_append_right _ upcoming) (Or.inr aborted)⟩

theorem Trusted.putBack (trusted : Trusted n) (thinned : Thinned n m)
    (upcoming : ∀ c ∈ m.mUpcoming, c ∈ n.mUpcoming) (member : child ∈ n.mUpcoming)
    (state : child.basic.mState = .RUNNING ∨ child.basic.mState = .ABORTING)
    (cranked : Cranked child child') : Trusted (m.putBack child') where
  upcoming c later := trusted.upcoming c (upcoming c later)
  aborted c inside aborted := by
    rcases mem_putBack.mp inside with visited | rfl | later
    · exact trusted.aborted c (thinned.visited c visited) aborted
    · rw [cranked.shutDown]
      rcases state with running | aborting
      · have alive := cranked.running running
        exact absurd aborted (not_or.mpr alive)
      · exact trusted.aborted child (List.mem_append_right _ member) (Or.inl aborting)
    · exact trusted.aborted c (List.mem_append_right _ (upcoming c later)) aborted
  endings ending member := trusted.thinned thinned ending member

def Cranks (crank : Node → Option Node) : Prop :=
  ∀ c c', crank c = some c' → Everywhere Orderly c → Everywhere Orderly c' ∧ Cranked c c'

theorem putBack_children (all : Everywhere Orderly n) (isWork : n.basic.isWork = true)
    (yielded : n.yieldNextRunningChild = (m, some child))
    (below : Everywhere Orderly child') :
    (∀ c ∈ (m.putBack child').mChildren, Everywhere Orderly c) ∧ Tallied (m.putBack child') := by
  obtain ⟨thinned, member, _, upcoming, counted⟩ := yield_some yielded
  refine ⟨?_, ?_, ?_⟩
  · intro c inside
    rcases mem_putBack.mp inside with visited | rfl | later
    · exact all.inside c (thinned.visited c visited)
    · exact below
    · exact all.inside c (List.mem_append_right _ (upcoming c later))
  · intro plain
    change m.basic.isWork = false at plain
    rw [thinned.basic, isWork] at plain
    cases plain
  · have before := all.here.counted
    change m.basic.added = m.basic.endings.length +
      (m.mVisited ++ [child'] ++ m.mUpcoming).length
    have same : m.basic.added = n.basic.added := by rw [thinned.basic]
    rw [same, before, ← counted, List.length_append, List.length_append, List.length_singleton]
    omega

theorem onAbort_some {crank : Node → Option Node} (cranks : Cranks crank) {level : Level}
    {done : Bool} (all : Everywhere Orderly n) (ran : onAbort crank level n = some (m, done)) :
    (∀ c ∈ m.mChildren, Everywhere Orderly c) ∧ Tallied m ∧
      m.basic = { n.basic with endings := m.basic.endings } := by
  unfold onAbort at ran
  split at ran
  · cases ran
    exact ⟨all.inside, all.here.tallied, rfl⟩
  · rename_i isWork
    rw [Bool.not_eq_true, Bool.not_eq_false] at isWork
    split at ran
    · rename_i m child yielded
      split at ran
      · cases ran
      · obtain ⟨child', ranChild, ran⟩ := Option.bind_eq_some_iff.mp ran
        cases ran
        obtain ⟨thinned, member, _, _, _⟩ := yield_some yielded
        have below := all.inside child (List.mem_append_right _ member)
        obtain ⟨children, tallied⟩ :=
          putBack_children all isWork yielded (cranks child child' ranChild below).1
        exact ⟨children, tallied, thinned.basic⟩
    · rename_i m yielded
      cases ran
      obtain ⟨thinned, visited, upcoming, counted⟩ := yield_none yielded
      have children : ∀ c ∈ m.mChildren, c ∈ n.mChildren := by
        unfold mChildren
        rw [visited]
        exact upcoming
      refine ⟨fun c member => all.inside c (children c member), ⟨?_, ?_⟩, thinned.basic⟩
      · intro plain
        rw [thinned.basic, isWork] at plain
        cases plain
      · have same : m.basic.added = n.basic.added := by rw [thinned.basic]
        rw [same, all.here.counted, ← counted, mChildren, visited]
        rfl

structure Assembled (m : Node) : Prop where
  running : m.basic.mState = .RUNNING
  unflagged : m.basic.mAbortChildrenButNotSelf = false
  isWork : m.basic.isWork = true
  counted : m.basic.added = m.basic.endings.length + m.mChildren.length
  children : ∀ c ∈ m.mChildren, Everywhere Orderly c
  aborted : ∀ c ∈ m.mChildren, c.basic.mState = .ABORTING ∨ c.basic.mState = .ABORTED →
    c.basic.shutDown = true
  endings : ∀ ending ∈ m.basic.endings, Excused ending

theorem Assembled.tallied (assembled : Assembled m) : Tallied m := by
  refine ⟨?_, assembled.counted⟩
  intro plain
  rw [assembled.isWork] at plain
  cases plain

structure Started (child : Node) : Prop where
  orderly : Everywhere Orderly child
  running : child.basic.mState = .RUNNING

theorem startWork_started {created : NewWork} (started : startWork created = some child) :
    Started child := by
  have running : startWork created =
      some ((new created.isWork created.mMaxRetries).withState .RUNNING) := rfl
  rw [running] at started
  cases started
  have cleared : Cleared (new created.isWork created.mMaxRetries)
      ((new created.isWork created.mMaxRetries).withState .RUNNING) .RUNNING :=
    ⟨⟨rfl, rfl⟩, ⟨rfl, rfl⟩, rfl, rfl, rfl⟩
  exact ⟨cleared.orderly (by decide), rfl⟩

theorem mem_addChild {c : Node} : c ∈ (m.addChild child).mChildren ↔ c ∈ m.mChildren ∨ c = child := by
  unfold addChild mChildren
  dsimp only
  split
  · rename_i atEnd
    rw [List.isEmpty_iff.mp atEnd.1]
    simp
  · simp [or_assoc]

theorem addChild_basic :
    (m.addChild child).basic = { m.basic with added := m.basic.added + 1 } := by
  unfold addChild
  dsimp only
  split <;> rfl

theorem addChild_length :
    (m.addChild child).mChildren.length = m.mChildren.length + 1 := by
  unfold addChild mChildren
  dsimp only
  split
  · simp only [List.length_append, List.length_singleton]
    omega
  · simp only [List.length_append, List.length_singleton]
    omega

theorem Assembled.addChild (assembled : Assembled m) (started : Started child) :
    Assembled (m.addChild child) where
  running := by rw [addChild_basic]; exact assembled.running
  unflagged := by rw [addChild_basic]; exact assembled.unflagged
  isWork := by rw [addChild_basic]; exact assembled.isWork
  counted := by
    rw [addChild_basic, addChild_length]
    change m.basic.added + 1 = m.basic.endings.length + _
    rw [assembled.counted]
    omega
  children c member := by
    rcases mem_addChild.mp member with old | rfl
    · exact assembled.children c old
    · exact started.orderly
  aborted c member aborted := by
    rcases mem_addChild.mp member with old | rfl
    · exact assembled.aborted c old aborted
    · rw [started.running] at aborted
      rcases aborted with impossible | impossible <;> cases impossible
  endings := by rw [addChild_basic]; exact assembled.endings

theorem Assembled.addMoreWork (assembled : Assembled m) {adding : List NewWork}
    (added : m.addMoreWork adding = some n) :
    Assembled n ∧ n.basic.shutDown = m.basic.shutDown := by
  unfold Node.addMoreWork at added
  induction adding generalizing m with
  | nil =>
      cases added
      exact ⟨assembled, rfl⟩
  | cons created rest ih =>
      obtain ⟨next, first, added⟩ := Option.bind_eq_some_iff.mp added
      obtain ⟨⟨after, wokeUp⟩, one, rfl⟩ := Option.map_eq_some_iff.mp first
      unfold addWork at one
      obtain ⟨child, started, woken⟩ := Option.bind_eq_some_iff.mp one
      have grown := assembled.addChild (startWork_started started)
      unfold wakeUp at woken
      rw [if_pos (by rw [grown.running]; decide)] at woken
      cases woken
      obtain ⟨done, same⟩ := ih grown added
      rw [addChild_basic] at same
      exact ⟨done, same⟩

theorem failure_state : child.getState = .WORK_FAILURE ↔ child.basic.mState = .FAILURE := by
  unfold getState
  cases child.basic.mState <;> decide

theorem Assembled.trusted (assembled : Assembled m) (unfailed : m.anyChildRaiseFailure = false) :
    Trusted m where
  upcoming c member failure := by
    have seen : m.anyChildRaiseFailure = true :=
      List.any_eq_true.mpr ⟨c, List.mem_append_right _ member,
        decide_eq_true (failure_state.mpr failure)⟩
    rw [unfailed] at seen
    cases seen
  aborted := assembled.aborted
  endings := assembled.endings

theorem heedsChildren_iff {result : State} :
    m.heedsChildren result = true ↔
      (result = .WORK_SUCCESS → m.allChildrenSuccessful = true) ∧
        (m.anyChildRaiseFailure = true → result = .WORK_FAILURE) ∧
          (result = .WORK_WAITING → ¬ m.anyChildRunning = true) := by
  unfold heedsChildren
  exact decide_eq_true_iff

theorem shutdownChildren_length (children : List Node) :
    (shutdownChildren children).length = children.length := by
  induction children with
  | nil => rfl
  | cons c rest ih => exact congrArg (· + 1) ih

theorem mem_shutdownChildren {children : List Node} {c : Node}
    (member : c ∈ shutdownChildren children) :
    ∃ before ∈ children, c = if before.isDone then before else before.shutdown := by
  induction children with
  | nil => cases member
  | cons first rest ih =>
      rcases List.mem_cons.mp member with rfl | later
      · exact ⟨first, List.mem_cons_self, rfl⟩
      · obtain ⟨before, inside, same⟩ := ih later
        exact ⟨before, List.mem_cons_of_mem first inside, same⟩

theorem shutdown_eq (n : Node) :
    n.shutdown =
      { basic := if n.isDone then n.basic else { n.basic with mState := .ABORTING }
        mVisited := shutdownChildren n.mVisited
        mUpcoming := shutdownChildren n.mUpcoming } := by
  cases n
  rfl

theorem Orderly.aborting (tallied : Tallied n) (aborting : n.basic.mState = .ABORTING) :
    Orderly n where
  rests := by
    rw [aborting]
    decide
  plain := tallied.plain
  counted := tallied.counted
  flagged _ := Or.inr aborting
  trusted _ alive := by
    rw [aborting] at alive
    exact absurd alive (by decide)
  waiting isWaiting := by
    rw [aborting] at isWaiting
    cases isWaiting
  done isDone := by
    have done := isDone_cases isDone
    rw [aborting] at done
    exact absurd done (by decide)
  success isSuccess := by
    rw [aborting] at isSuccess
    cases isSuccess

theorem Tallied.shutdown (tallied : Tallied n) : Tallied n.shutdown := by
  rw [shutdown_eq]
  have same : (if n.isDone then n.basic else { n.basic with mState := .ABORTING }) =
      { n.basic with
        mState := if n.isDone then n.basic.mState else .ABORTING } := by
    split <;> rfl
  rw [same]
  refine ⟨?_, ?_⟩
  · intro plain
    obtain ⟨none, unflagged⟩ := tallied.plain plain
    obtain ⟨visited, upcoming⟩ := List.append_eq_nil_iff.mp none
    refine ⟨?_, unflagged⟩
    unfold mChildren
    rw [visited, upcoming]
    rfl
  · have counted := tallied.counted
    unfold mChildren at counted ⊢
    rw [List.length_append] at counted ⊢
    rw [shutdownChildren_length, shutdownChildren_length]
    exact counted

theorem Orderly.shutdown (orderly : Orderly n) : Orderly n.shutdown := by
  by_cases done : n.isDone = true
  · obtain ⟨visited, upcoming⟩ := List.append_eq_nil_iff.mp (orderly.done done)
    have same : n.shutdown = n := by
      rw [shutdown_eq, if_pos done, visited, upcoming]
      cases n
      cases visited
      cases upcoming
      rfl
    rw [same]
    exact orderly
  · apply Orderly.aborting orderly.tallied.shutdown
    rw [shutdown_eq, if_neg done]

theorem everywhere_shutdownChildren {children : List Node}
    (all : ∀ c ∈ children, Everywhere Orderly c ∧ Everywhere Orderly c.shutdown) :
    ∀ c ∈ shutdownChildren children, Everywhere Orderly c := by
  intro c member
  obtain ⟨before, inside, rfl⟩ := mem_shutdownChildren member
  split
  · exact (all before inside).1
  · exact (all before inside).2

theorem mem_shutdown {c : Node} (member : c ∈ n.shutdown.mChildren) :
    c ∈ shutdownChildren n.mVisited ∨ c ∈ shutdownChildren n.mUpcoming := by
  rw [shutdown_eq] at member
  exact List.mem_append.mp member

theorem Everywhere.shutdown (all : Everywhere Orderly n) : Everywhere Orderly n.shutdown := by
  induction all with
  | node n own children ih =>
      refine ⟨_, own.shutdown, ?_⟩
      intro c member
      rcases mem_shutdown member with visited | upcoming
      · apply everywhere_shutdownChildren _ c visited
        intro before inside
        have present := List.mem_append_left n.mUpcoming inside
        exact ⟨children before present, ih before present⟩
      · apply everywhere_shutdownChildren _ c upcoming
        intro before inside
        have present := List.mem_append_right n.mVisited inside
        exact ⟨children before present, ih before present⟩

theorem success_state : child.getState = .WORK_SUCCESS ↔ child.basic.mState = .SUCCESS := by
  unfold getState
  cases child.basic.mState <;> decide

theorem Assembled.ran (assembled : Assembled m) {state : State}
    (unfailed : state = .WORK_RUNNING ∨ state = .WORK_WAITING → m.anyChildRaiseFailure = false)
    (unfinished : state ≠ .WORK_SUCCESS)
    (idle : state = .WORK_WAITING → m.anyChildRunning = false) : Ran m state where
  running := assembled.running
  tallied := assembled.tallied
  trusted _ goes := assembled.trusted (unfailed goes)
  waiting waits := by
    refine ⟨assembled.unflagged, ?_⟩
    intro c member running
    have seen : m.anyChildRunning = true := by
      refine List.any_eq_true.mpr ⟨c, member, decide_eq_true ?_⟩
      unfold getState
      rw [running]
    rw [idle waits] at seen
    cases seen
  success impossible := absurd impossible unfinished

theorem Assembled.succeeded (assembled : Assembled m) (successful : m.allChildrenSuccessful = true)
    (cleared : m.clearChildren = some n) :
    Ran n .WORK_SUCCESS ∧ n.mChildren = [] ∧ n.basic.shutDown = m.basic.shutDown := by
  obtain ⟨_, rfl⟩ := clearChildren_some cleared
  refine ⟨⟨assembled.running, ⟨?_, ?_⟩, ?_, ?_, ?_⟩, rfl, rfl⟩
  · intro plain
    exact ⟨rfl, (assembled.tallied.plain plain).2⟩
  · change m.basic.added = (m.basic.endings ++ m.mChildren.map ending).length + 0
    rw [List.length_append, List.length_map, assembled.counted]
    rfl
  · intro _ goes
    exact absurd goes (by decide)
  · intro impossible
    cases impossible
  · intro _
    refine ⟨assembled.unflagged, rfl, ?_⟩
    intro ending member
    rcases List.mem_append.mp member with before | now
    · exact assembled.endings ending before
    · obtain ⟨c, inside, rfl⟩ := List.mem_map.mp now
      have success := of_decide_eq_true (List.all_eq_true.mp successful c inside)
      exact Or.inl (success_state.mp success)

theorem Assembled.failing (assembled : Assembled m) :
    Ran {
      basic := { m.basic with mAbortChildrenButNotSelf := true }
      mVisited := shutdownChildren m.mVisited
      mUpcoming := shutdownChildren m.mUpcoming } .WORK_RUNNING where
  running := assembled.running
  tallied := by
    refine ⟨?_, ?_⟩
    · intro plain
      change m.basic.isWork = false at plain
      rw [assembled.isWork] at plain
      cases plain
    · have counted := assembled.counted
      unfold mChildren at counted ⊢
      rw [List.length_append] at counted ⊢
      rw [shutdownChildren_length, shutdownChildren_length]
      exact counted
  trusted unflagged := by cases unflagged
  waiting impossible := by cases impossible
  success impossible := by cases impossible

theorem afterDoWork_some (assembled : Assembled m) {result state : State}
    (heeds : m.heedsChildren result = true) (ran : m.afterDoWork result = some (n, state)) :
    Ran n state ∧ (∀ c ∈ n.mChildren, Everywhere Orderly c) ∧
      n.basic.shutDown = m.basic.shutDown := by
  obtain ⟨success, failure, waiting⟩ := heedsChildren_iff.mp heeds
  cases result with
  | WORK_SUCCESS =>
      unfold afterDoWork at ran
      dsimp only at ran
      split at ran
      · rename_i successful
        obtain ⟨cleared, done, ran⟩ := Option.bind_eq_some_iff.mp ran
        cases ran
        obtain ⟨succeeded, none, same⟩ := assembled.succeeded successful done
        refine ⟨succeeded, ?_, same⟩
        rw [none]
        exact fun c member => absurd member List.not_mem_nil
      · cases ran
  | WORK_FAILURE =>
      unfold afterDoWork at ran
      dsimp only at ran
      split at ran
      · cases ran
        refine ⟨assembled.failing, ?_, rfl⟩
        intro c member
        rcases List.mem_append.mp member with visited | upcoming
        · apply everywhere_shutdownChildren _ c visited
          intro before inside
          have present := assembled.children before (List.mem_append_left _ inside)
          exact ⟨present, present.shutdown⟩
        · apply everywhere_shutdownChildren _ c upcoming
          intro before inside
          have present := assembled.children before (List.mem_append_right _ inside)
          exact ⟨present, present.shutdown⟩
      · cases ran
        refine ⟨assembled.ran (fun goes => absurd goes (by decide)) (by decide) ?_,
          assembled.children, rfl⟩
        intro impossible
        cases impossible
  | WORK_RUNNING =>
      cases ran
      refine ⟨assembled.ran ?_ (by decide) ?_, assembled.children, rfl⟩
      · intro _
        exact Bool.eq_false_iff.mpr fun seen => absurd (failure seen) (by decide)
      · intro impossible
        cases impossible
  | WORK_WAITING =>
      cases ran
      refine ⟨assembled.ran ?_ (by decide) ?_, assembled.children, rfl⟩
      · intro _
        exact Bool.eq_false_iff.mpr fun seen => absurd (failure seen) (by decide)
      · intro _
        exact Bool.eq_false_iff.mpr (waiting rfl)
  | WORK_ABORTED =>
      cases ran
      refine ⟨assembled.ran (fun goes => absurd goes (by decide)) (by decide) ?_,
        assembled.children, rfl⟩
      intro impossible
      cases impossible

/-- A round of the iterator is over: `doWork` is called with all children before it. -/
theorem Orderly.assembled (all : Everywhere Orderly n) (running : n.basic.mState = .RUNNING)
    (unflagged : n.basic.mAbortChildrenButNotSelf = false) (isWork : n.basic.isWork = true)
    (yielded : n.yieldNextRunningChild = (m, none)) : Assembled m := by
  obtain ⟨thinned, visited, upcoming, counted⟩ := yield_none yielded
  have trusted := all.here.trusted unflagged (Or.inl running)
  have inside : ∀ c ∈ m.mChildren, c ∈ n.mChildren := by
    unfold mChildren
    rw [visited]
    exact upcoming
  exact {
    running := by rw [thinned.basic]; exact running
    unflagged := by rw [thinned.basic]; exact unflagged
    isWork := by rw [thinned.basic]; exact isWork
    counted := by
      have same : m.basic.added = n.basic.added := by rw [thinned.basic]
      rw [same, all.here.counted, ← counted, mChildren, visited]
      rfl
    children := fun c member => all.inside c (inside c member)
    aborted := fun c member => trusted.aborted c (inside c member)
    endings := trusted.thinned thinned }

theorem onRun_some {crank : Node → Option Node} (cranks : Cranks crank) {level : Level}
    {state : State} (all : Everywhere Orderly n) (running : n.basic.mState = .RUNNING)
    (ran : onRun crank level n = some (m, state)) :
    Ran m state ∧ (∀ c ∈ m.mChildren, Everywhere Orderly c) ∧
      m.basic.shutDown = n.basic.shutDown := by
  unfold onRun at ran
  split at ran
  · rename_i plain
    rw [Bool.not_eq_true] at plain
    cases ran
    obtain ⟨none, unflagged⟩ := all.here.plain plain
    have trusted := all.here.trusted unflagged (Or.inl running)
    refine ⟨⟨running, all.here.tallied, fun _ _ => trusted, ?_, ?_⟩, all.inside, rfl⟩
    · intro _
      refine ⟨unflagged, ?_⟩
      rw [none]
      exact fun c member => absurd member List.not_mem_nil
    · exact fun _ => ⟨unflagged, none, trusted.endings⟩
  rename_i isWork
  rw [Bool.not_eq_true, Bool.not_eq_false] at isWork
  split at ran
  · rename_i flagged
    obtain ⟨⟨after, done⟩, aborted, ran⟩ := Option.bind_eq_some_iff.mp ran
    cases ran
    obtain ⟨children, tallied, basic⟩ := onAbort_some cranks all aborted
    have stays : m.basic.mAbortChildrenButNotSelf = true := by
      rw [basic]
      exact flagged
    refine ⟨⟨?_, tallied, ?_, ?_, ?_⟩, children, by rw [basic]⟩
    · rw [basic]
      exact running
    · intro unflagged
      rw [stays] at unflagged
      cases unflagged
    · cases done <;> exact fun impossible => by cases impossible
    · cases done <;> exact fun impossible => by cases impossible
  rename_i unflagged
  rw [Bool.not_eq_true] at unflagged
  split at ran
  · rename_i m child yielded
    obtain ⟨child', cranked, ran⟩ := Option.bind_eq_some_iff.mp ran
    cases ran
    obtain ⟨thinned, member, runs, upcoming, _⟩ := yield_some yielded
    have present := all.inside child (List.mem_append_right _ member)
    obtain ⟨below, moved⟩ := cranks child child' cranked present
    obtain ⟨children, tallied⟩ := putBack_children all isWork yielded below
    have trusted := (all.here.trusted unflagged (Or.inl running)).putBack thinned upcoming member
      (running_or_aborting present.here runs) moved
    have basic : (m.putBack child').basic = { n.basic with endings := m.basic.endings } :=
      thinned.basic
    refine ⟨⟨?_, tallied, fun _ _ => trusted, ?_, ?_⟩, children, by rw [basic]⟩
    · rw [basic]
      exact running
    · intro impossible
      cases impossible
    · intro impossible
      cases impossible
  · rename_i m yielded
    obtain ⟨filled, added, ran⟩ := Option.bind_eq_some_iff.mp ran
    have assembled := Orderly.assembled all running unflagged isWork yielded
    obtain ⟨full, same⟩ := assembled.addMoreWork added
    split at ran
    · cases ran
    · rename_i heeds
      rw [Bool.not_eq_true, Bool.not_eq_false] at heeds
      obtain ⟨result, children, kept⟩ := afterDoWork_some full heeds ran
      refine ⟨result, children, ?_⟩
      rw [kept, same, (yield_none yielded).1.basic]

theorem runs_of_alive (orderly : Orderly n)
    (alive : ¬ (n.isDone = true ∨ n.basic.mState = .WAITING))
    (notAborting : n.basic.mState ≠ .ABORTING) : n.basic.mState = .RUNNING := by
  have rests := orderly.rests
  unfold isDone at alive
  revert rests alive notAborting
  cases n.basic.mState <;> simp

theorem crankWork_cranks (script : List Level) : Cranks (crankWork script) := by
  induction script with
  | nil =>
      intro n n' impossible
      cases impossible
  | cons level below ih =>
      intro n n' cranked all
      unfold crankWork at cranked
      split at cranked
      · cases cranked
      rename_i alive
      split at cranked
      · rename_i aborting
        obtain ⟨⟨m, done⟩, aborted, set⟩ := Option.bind_eq_some_iff.mp cranked
        obtain ⟨children, tallied, basic⟩ := onAbort_some ih all aborted
        have still : m.basic.mState = .ABORTING := by
          rw [basic]
          exact aborting
        obtain ⟨after, moved⟩ := aborting_setState still tallied children set
        refine ⟨after, ?_, ?_⟩
        · intro running
          rw [aborting] at running
          cases running
        · rw [moved.shutDown, basic]
      · rename_i notAborting
        have running := runs_of_alive all.here alive notAborting
        obtain ⟨⟨m, state⟩, ran, set⟩ := Option.bind_eq_some_iff.mp cranked
        obtain ⟨result, children, same⟩ := onRun_some ih all running ran
        obtain ⟨after, moved⟩ := result.setState children set
        refine ⟨after, fun _ => moved.running result.running, ?_⟩
        rw [moved.shutDown, same]

end Cranks

/-! ### What the works of the program return -/

section Returned

variable {n m : Node}

theorem unfailed_of_successful (successful : n.allChildrenSuccessful = true) :
    n.anyChildRaiseFailure = false := by
  apply Bool.eq_false_iff.mpr
  intro failed
  obtain ⟨c, member, failure⟩ := List.any_eq_true.mp failed
  have success := of_decide_eq_true (List.all_eq_true.mp successful c member)
  rw [of_decide_eq_true failure] at success
  cases success

theorem checkChildrenStatus_heeds (w : Node) : w.heedsChildren (checkChildrenStatus w) = true := by
  rw [heedsChildren_iff]
  unfold checkChildrenStatus
  split
  · rename_i successful
    have unfailed := unfailed_of_successful successful
    refine ⟨fun _ => successful, ?_, State.noConfusion⟩
    intro failed
    rw [unfailed] at failed
    cases failed
  split
  · exact ⟨State.noConfusion, fun _ => rfl, State.noConfusion⟩
  · rename_i unfailed
    split
    · rename_i idle
      exact ⟨State.noConfusion, fun failed => absurd failed unfailed, fun _ => idle⟩
    · exact ⟨State.noConfusion, fun failed => absurd failed unfailed, State.noConfusion⟩

theorem addMoreWork_children {adding : List NewWork} (added : n.addMoreWork adding = some m) :
    ∀ c ∈ m.mChildren, c ∈ n.mChildren ∨ c.basic.mState = .RUNNING := by
  induction adding generalizing n with
  | nil =>
      cases added
      exact fun c member => Or.inl member
  | cons created rest ih =>
      obtain ⟨grown, one, more⟩ := Option.bind_eq_some_iff.mp added
      obtain ⟨⟨woken, told⟩, adds, rfl⟩ := Option.map_eq_some_iff.mp one
      unfold addWork at adds
      obtain ⟨child, started, wakes⟩ := Option.bind_eq_some_iff.mp adds
      intro c member
      rcases ih more c member with before | running
      · rw [wakeUp_children wakes, mem_addChild] at before
        rcases before with old | rfl
        · exact Or.inl old
        · exact Or.inr (startWork_started started).running
      · exact Or.inr running

theorem batchDoWork_heeds {adding : List NewWork} {result : State}
    (ran : n.batchDoWork adding = some (m, result)) : m.heedsChildren result = true := by
  rw [heedsChildren_iff]
  unfold batchDoWork at ran
  split at ran
  · cases ran
    exact ⟨State.noConfusion, fun _ => rfl, State.noConfusion⟩
  · rename_i unfailed
    obtain ⟨filled, added, ran⟩ := Option.bind_eq_some_iff.mp ran
    have still : ¬ filled.anyChildRaiseFailure = true := by
      intro failed
      obtain ⟨c, member, failure⟩ := List.any_eq_true.mp failed
      rcases addMoreWork_children added c member with old | running
      · exact unfailed (List.any_eq_true.mpr ⟨c, old, failure⟩)
      · have state := failure_state.mp (of_decide_eq_true failure)
        rw [running] at state
        cases state
    split at ran
    · rename_i successful
      cases ran
      exact ⟨fun _ => successful, fun failed => absurd failed still, State.noConfusion⟩
    split at ran
    · rename_i idle
      cases ran
      exact ⟨State.noConfusion, fun failed => absurd failed still, fun _ => idle⟩
    · cases ran
      exact ⟨State.noConfusion, fun failed => absurd failed still, State.noConfusion⟩

end Returned

/-! ### What happens between cranks -/

section Happenings

variable {n n' child child' : Node} {wokeUp : Bool}

inductive Changed (n n' : Node) : Bool → Prop where
  | wokeUp (waited : n.basic.mState = .WAITING) (runs : n'.basic.mState = .RUNNING)
      (shutDown : n'.basic.shutDown = n.basic.shutDown) : Changed n n' true
  | stayed (state : n'.basic.mState = n.basic.mState)
      (shutDown : n'.basic.shutDown = n.basic.shutDown) : Changed n n' false
  | shutDown (state : n'.basic.mState = .ABORTING) (shutDown : n'.basic.shutDown = true) :
      Changed n n' false

theorem withState_self {st : InternalState} (state : n.basic.mState = st) : n.withState st = n := by
  subst state
  cases n
  rfl

theorem Orderly.running (orderly : Orderly n) (waits : n.basic.mState = .WAITING) :
    Orderly (n.withState .RUNNING) where
  rests := ⟨InternalState.noConfusion, InternalState.noConfusion⟩
  plain := orderly.plain
  counted := orderly.counted
  flagged _ := Or.inl rfl
  trusted unflagged _ := (orderly.trusted unflagged (Or.inr waits)).withState _
  waiting impossible := by cases impossible
  done impossible := by cases impossible
  success impossible := by cases impossible

theorem wakeUp_some (all : Everywhere Orderly n) (woken : n.wakeUp = some (n', wokeUp)) :
    Everywhere Orderly n' ∧ Changed n n' wokeUp := by
  rcases wakeUp_cases woken with ⟨_, rfl, rfl⟩ | ⟨waits, rfl, rfl⟩
  · exact ⟨all, .stayed rfl rfl⟩
  · exact ⟨⟨_, all.here.running waits, all.inside⟩, .wokeUp waits rfl rfl⟩

theorem shutdown_some (all : Everywhere Orderly n)
    (handled : n.handle .shutdown = some (n', wokeUp)) :
    Everywhere Orderly n' ∧ Changed n n' wokeUp := by
  unfold handle at handled
  dsimp only at handled
  split at handled
  · rename_i done
    cases handled
    refine ⟨all.shutdown, .stayed ?_ ?_⟩
    · rw [shutdown_eq, if_pos done]
    · rw [shutdown_eq, if_pos done]
  · rename_i alive
    cases handled
    have down := all.shutdown
    have aborting : n.shutdown.basic.mState = .ABORTING := by
      rw [shutdown_eq, if_neg alive]
    refine ⟨⟨_, ?_, down.inside⟩, .shutDown aborting rfl⟩
    refine Orderly.aborting ?_ ?_
    · exact ⟨down.here.plain, down.here.counted⟩
    · exact aborting

theorem Orderly.addWork (orderly : Orderly n) (isWork : n.basic.isWork = true)
    (alive : n.basic.mState = .RUNNING ∨ n.basic.mState = .WAITING) (started : Started child) :
    Orderly ((n.addChild child).withState .RUNNING) where
  rests := ⟨InternalState.noConfusion, InternalState.noConfusion⟩
  plain plain := by
    change (n.addChild child).basic.isWork = false at plain
    rw [addChild_basic] at plain
    rw [isWork] at plain
    cases plain
  counted := by
    change (n.addChild child).basic.added =
      (n.addChild child).basic.endings.length + (n.addChild child).mChildren.length
    rw [addChild_basic, addChild_length, ← Nat.add_assoc, ← orderly.counted]
  flagged _ := Or.inl rfl
  trusted unflagged _ := by
    have before : n.basic.mAbortChildrenButNotSelf = false := by
      have same : (n.addChild child).basic.mAbortChildrenButNotSelf = false := unflagged
      rw [addChild_basic] at same
      exact same
    have trusted := orderly.trusted before alive
    refine ⟨?_, ?_, ?_⟩
    · intro c member
      have inside : c ∈ n.mUpcoming ∨ c = child := by
        have upcoming : c ∈ (n.addChild child).mUpcoming := member
        unfold addChild at upcoming
        dsimp only at upcoming
        split at upcoming
        · exact Or.inl upcoming
        · exact (List.mem_append.mp upcoming).imp_right List.mem_singleton.mp
      rcases inside with old | rfl
      · exact trusted.upcoming c old
      · rw [started.running]
        decide
    · intro c member aborted
      rcases mem_addChild.mp member with old | rfl
      · exact trusted.aborted c old aborted
      · rw [started.running] at aborted
        exact absurd aborted (by decide)
    · change ∀ ending ∈ (n.addChild child).basic.endings, Excused ending
      rw [addChild_basic]
      exact trusted.endings
  waiting impossible := by cases impossible
  done impossible := by cases impossible
  success impossible := by cases impossible

theorem addWork_some (all : Everywhere Orderly n) {created : NewWork}
    (handled : n.handle (.addWork created) = some (n', wokeUp)) :
    Everywhere Orderly n' ∧ Changed n n' wokeUp := by
  unfold handle at handled
  dsimp only at handled
  split at handled
  · cases handled
  rename_i accepts
  rw [not_or, not_or, not_not] at accepts
  obtain ⟨isWork, notAborting, notDone⟩ := accepts
  have notAborting : n.basic.mState ≠ .ABORTING := fun same => notAborting (decide_eq_true same)
  have alive : n.basic.mState = .RUNNING ∨ n.basic.mState = .WAITING := by
    by_cases waits : n.basic.mState = .WAITING
    · exact Or.inr waits
    · exact Or.inl (runs_of_alive all.here (not_or.mpr ⟨notDone, waits⟩) notAborting)
  unfold addWork at handled
  obtain ⟨child, started, woken⟩ := Option.bind_eq_some_iff.mp handled
  have begun := startWork_started started
  have after : Everywhere Orderly ((n.addChild child).withState .RUNNING) := by
    refine ⟨_, all.here.addWork isWork alive begun, ?_⟩
    intro c member
    rcases mem_addChild.mp member with old | rfl
    · exact all.inside c old
    · exact begun.orderly
  have state : (n.addChild child).basic.mState = n.basic.mState := by rw [addChild_basic]
  have shutDown : (n.addChild child).basic.shutDown = n.basic.shutDown := by rw [addChild_basic]
  rcases wakeUp_cases woken with ⟨awake, rfl, rfl⟩ | ⟨waits, rfl, rfl⟩
  · rw [state] at awake
    have running := alive.resolve_right awake
    rw [withState_self (state.trans running)] at after
    exact ⟨after, .stayed state shutDown⟩
  · rw [state] at waits
    exact ⟨after, .wokeUp waits rfl shutDown⟩

theorem Everywhere.retried (all : Everywhere Orderly n) (mRetries : Nat) (mRetryTimer : Bool) :
    Everywhere Orderly { n with basic := { n.basic with mRetries, mRetryTimer } } := by
  refine ⟨_, ?_, all.inside⟩
  obtain ⟨rests, plain, counted, flagged, trusted, waiting, done, success⟩ := all.here
  refine ⟨rests, plain, counted, flagged, ?_, waiting, done, success⟩
  intro unflagged alive
  obtain ⟨upcoming, aborted, endings⟩ := trusted unflagged alive
  exact ⟨upcoming, aborted, endings⟩

theorem handle_some (all : Everywhere Orderly n) {happening : Happening}
    (handled : n.handle happening = some (n', wokeUp)) :
    Everywhere Orderly n' ∧ Changed n n' wokeUp := by
  cases happening with
  | wakeUp => exact wakeUp_some all handled
  | shutdown => exact shutdown_some all handled
  | addWork created => exact addWork_some all handled
  | retryTimer =>
      unfold handle at handled
      dsimp only at handled
      split at handled
      · cases handled
      split at handled
      · obtain ⟨after, changed⟩ := wakeUp_some (all.retried _ _) handled
        refine ⟨after, ?_⟩
        cases changed with
        | wokeUp waited runs shutDown => exact .wokeUp waited runs shutDown
        | stayed state shutDown => exact .stayed state shutDown
        | shutDown state shutDown => exact .shutDown state shutDown
      split at handled
      · cases handled
        exact ⟨all, .stayed rfl rfl⟩
      · cases handled

/-! ### Down a path -/

theorem replaceChild_basic (index : Nat) : (n.replaceChild index child').basic = n.basic := by
  unfold replaceChild
  split <;> rfl

theorem replaceChild_length (index : Nat) :
    (n.replaceChild index child').mChildren.length = n.mChildren.length := by
  unfold replaceChild mChildren
  split
  · rw [List.length_append, List.length_append, List.length_set]
  · rw [List.length_append, List.length_append, List.length_set]

theorem mem_replaceChild {index : Nat} {c : Node}
    (member : c ∈ (n.replaceChild index child').mChildren) : c ∈ n.mChildren ∨ c = child' := by
  unfold replaceChild at member
  split at member
  · rcases List.mem_append.mp member with visited | upcoming
    · exact (List.mem_or_eq_of_mem_set visited).imp_left (List.mem_append_left _)
    · exact Or.inl (List.mem_append_right _ upcoming)
  · rcases List.mem_append.mp member with visited | upcoming
    · exact Or.inl (List.mem_append_left _ visited)
    · exact (List.mem_or_eq_of_mem_set upcoming).imp_left (List.mem_append_right _)

theorem mem_replaceChild_upcoming {index : Nat} (found : n.mChildren[index]? = some child) {c : Node}
    (member : c ∈ (n.replaceChild index child').mUpcoming) :
    c ∈ n.mUpcoming ∨ c = child' ∧ child ∈ n.mUpcoming := by
  unfold replaceChild at member
  split at member
  · exact Or.inl member
  · rename_i behind
    rcases List.mem_or_eq_of_mem_set member with old | new
    · exact Or.inl old
    · unfold mChildren at found
      rw [List.getElem?_append_right (Nat.le_of_not_lt behind)] at found
      exact Or.inr ⟨new, List.mem_of_getElem? found⟩

theorem Trusted.replaceChild (trusted : Trusted n) {index : Nat}
    (found : n.mChildren[index]? = some child) (changed : Changed child child' wokeUp) :
    Trusted (n.replaceChild index child') where
  upcoming c member := by
    rcases mem_replaceChild_upcoming found member with old | ⟨rfl, was⟩
    · exact trusted.upcoming c old
    · cases changed with
      | wokeUp _ runs _ =>
          rw [runs]
          decide
      | stayed state _ =>
          rw [state]
          exact trusted.upcoming child was
      | shutDown state _ =>
          rw [state]
          decide
  aborted c member aborted := by
    rcases mem_replaceChild member with old | rfl
    · exact trusted.aborted c old aborted
    · cases changed with
      | wokeUp _ runs _ =>
          rw [runs] at aborted
          exact absurd aborted (by decide)
      | stayed state shutDown =>
          rw [state] at aborted
          rw [shutDown]
          exact trusted.aborted child (List.mem_of_getElem? found) aborted
      | shutDown _ shutDown => exact shutDown
  endings := by
    rw [replaceChild_basic]
    exact trusted.endings

/-- The parent of a child that something happened to, woken up if the child woke up. -/
theorem Orderly.replaceChild (orderly : Orderly n) {index : Nat}
    (found : n.mChildren[index]? = some child) (changed : Changed child child' wokeUp)
    {st : InternalState}
    (state : st = n.basic.mState ∨ n.basic.mState = .WAITING ∧ st = .RUNNING)
    (woken : wokeUp = true → st ≠ .WAITING) :
    Orderly ((n.replaceChild index child').withState st) := by
  have present := List.mem_of_getElem? found
  have some : n.mChildren ≠ [] := List.ne_nil_of_mem present
  have notDone : n.isDone ≠ true := fun done => some (orderly.done done)
  have rests : st ≠ .PENDING ∧ st ≠ .RETRYING := by
    rcases state with rfl | ⟨_, rfl⟩
    · exact orderly.rests
    · decide
  have unfinished : st ≠ .SUCCESS ∧ ¬ (st = .SUCCESS ∨ st = .FAILURE ∨ st = .ABORTED) := by
    rcases state with rfl | ⟨_, rfl⟩
    · have done : ¬ (n.basic.mState = .SUCCESS ∨ n.basic.mState = .FAILURE ∨
          n.basic.mState = .ABORTED) := fun done => notDone (decide_eq_true done)
      exact ⟨fun success => done (Or.inl success), done⟩
    · decide
  have basic := @replaceChild_basic n child' index
  exact {
    rests := rests
    plain := fun plain => by
      change (n.replaceChild index child').basic.isWork = false at plain
      rw [basic] at plain
      exact absurd (orderly.plain plain).1 some
    counted := by
      change (n.replaceChild index child').basic.added =
        (n.replaceChild index child').basic.endings.length +
          (n.replaceChild index child').mChildren.length
      rw [basic, replaceChild_length]
      exact orderly.counted
    flagged := fun flagged => by
      change (n.replaceChild index child').basic.mAbortChildrenButNotSelf = true at flagged
      rw [basic] at flagged
      rcases state with rfl | ⟨_, rfl⟩
      · exact orderly.flagged flagged
      · exact Or.inl rfl
    trusted := fun unflagged alive => by
      change (n.replaceChild index child').basic.mAbortChildrenButNotSelf = false at unflagged
      rw [basic] at unflagged
      refine (Trusted.replaceChild (orderly.trusted unflagged ?_) found changed).withState st
      rcases state with rfl | ⟨waits, _⟩
      · exact alive
      · exact Or.inr waits
    waiting := fun waits c member => by
      change st = .WAITING at waits
      have waited : n.basic.mState = .WAITING := by
        rcases state with rfl | ⟨waited, _⟩
        · exact waits
        · exact waited
      rcases mem_replaceChild member with old | rfl
      · exact orderly.waiting waited c old
      · cases changed with
        | wokeUp _ _ _ => exact absurd waits (woken rfl)
        | stayed same _ =>
            rw [same]
            exact orderly.waiting waited child present
        | shutDown aborting _ =>
            rw [aborting]
            decide
    done := fun done => absurd (of_decide_eq_true done) unfinished.2
    success := fun success => absurd success unfinished.1 }

theorem happen_some (path : List Nat) (happening : Happening) {n n' : Node} {wokeUp : Bool}
    (all : Everywhere Orderly n) (happened : n.happen path happening = some (n', wokeUp)) :
    Everywhere Orderly n' ∧ Changed n n' wokeUp := by
  induction path generalizing n n' wokeUp with
  | nil => exact handle_some all happened
  | cons index path ih =>
      obtain ⟨child, found, happened⟩ := Option.bind_eq_some_iff.mp happened
      obtain ⟨⟨child', told⟩, below, happened⟩ := Option.bind_eq_some_iff.mp happened
      dsimp only at happened
      have present := all.inside child (List.mem_of_getElem? found)
      obtain ⟨after, changed⟩ := ih present below
      have children : ∀ c ∈ (n.replaceChild index child').mChildren, Everywhere Orderly c := by
        intro c member
        rcases mem_replaceChild member with old | rfl
        · exact all.inside c old
        · exact after
      have basic := @replaceChild_basic n child' index
      have state : (n.replaceChild index child').basic.mState = n.basic.mState := by rw [basic]
      have shutDown : (n.replaceChild index child').basic.shutDown = n.basic.shutDown := by
        rw [basic]
      -- Nobody has to be woken up, or the work does not wait.
      have stays : (told = true → n.basic.mState ≠ .WAITING) →
          Everywhere Orderly (n.replaceChild index child') := by
        intro awake
        have kept := all.here.replaceChild found changed (Or.inl rfl) awake
        rw [withState_self state] at kept
        exact ⟨_, kept, children⟩
      cases told with
      | false =>
          cases happened
          exact ⟨stays (fun impossible => by cases impossible), .stayed state shutDown⟩
      | true =>
          rw [if_pos rfl] at happened
          rcases wakeUp_cases happened with ⟨awake, rfl, rfl⟩ | ⟨waits, rfl, rfl⟩
          · rw [state] at awake
            exact ⟨stays fun _ => awake, .stayed state shutDown⟩
          · rw [state] at waits
            have kept := all.here.replaceChild found changed (Or.inr ⟨waits, rfl⟩)
              (fun _ => InternalState.noConfusion)
            exact ⟨⟨_, kept, children⟩, .wokeUp waits rfl shutDown⟩

end Happenings

/-! ### Whole runs -/

section Runs

theorem step_orderly {root next : Node} (all : Everywhere Orderly root) {event : Event}
    (stepped : root.step event = some next) : Everywhere Orderly next := by
  cases event with
  | crank script => exact (crankWork_cranks script root next stepped all).1
  | happen path happening =>
      obtain ⟨⟨after, wokeUp⟩, happened, rfl⟩ := Option.map_eq_some_iff.mp stepped
      exact (happen_some path happening all happened).1

theorem foldlM_orderly {events : List Event} {first root : Node} (all : Everywhere Orderly first)
    (ran : events.foldlM step first = some root) : Everywhere Orderly root := by
  induction events generalizing first with
  | nil =>
      cases ran
      exact all
  | cons event later ih =>
      obtain ⟨next, stepped, ran⟩ := Option.bind_eq_some_iff.mp ran
      exact ih (step_orderly all stepped) ran

theorem run_orderly {created : NewWork} {events : List Event} {root : Node}
    (ran : run created events = some root) : Everywhere Orderly root := by
  unfold run at ran
  obtain ⟨first, started, ran⟩ := Option.bind_eq_some_iff.mp ran
  exact foldlM_orderly (startWork_started started).orderly ran

/-- What a work can say of its children: once it has succeeded, each child it added since its last
reset is gone and has succeeded, unless it was shut down on its own; and while it waits no child
runs, except one that is aborting because it was shut down on its own. -/
structure Accounted (n : Node) : Prop where
  success : n.basic.mState = .SUCCESS →
    n.mChildren = [] ∧ n.basic.endings.length = n.basic.added ∧
      ∀ ending ∈ n.basic.endings, Excused ending
  waiting : n.basic.mState = .WAITING → ∀ c ∈ n.mChildren, c.getState = .WORK_RUNNING →
    c.isAborting = true ∧ c.basic.shutDown = true

theorem accounted_of_orderly (n : Node) (all : Everywhere Orderly n) : Accounted n where
  success success := by
    have none := all.here.done (decide_eq_true (Or.inl success))
    have counted := all.here.counted
    rw [none] at counted
    exact ⟨none, counted.symm, all.here.success success⟩
  waiting waits c member runs := by
    have notRunning := all.here.waiting waits c member
    have aborting :=
      (running_or_aborting (all.inside c member).here runs).resolve_left notRunning
    have unflagged : n.basic.mAbortChildrenButNotSelf = false := by
      apply Bool.eq_false_iff.mpr
      intro flagged
      have other := all.here.flagged flagged
      rw [waits] at other
      exact absurd other (by decide)
    refine ⟨decide_eq_true aborting, ?_⟩
    exact (all.here.trusted unflagged (Or.inr waits)).aborted c member (Or.inl aborting)

/-- In every tree and every run, every work accounts for its children. -/
theorem run_children_accounted (created : NewWork) (events : List Event) (root : Node)
    (ran : run created events = some root) : Everywhere Accounted root :=
  (run_orderly ran).mono accounted_of_orderly

def parentWork : NewWork := ⟨true, 0⟩

def plainWork : NewWork := ⟨false, 0⟩

/-- A crank in which the root returns `result` or cranks a child that does. -/
def returning (result : State) : Event :=
  .crank [⟨result, true, []⟩, ⟨result, true, []⟩]

/-- Of two children the first is shut down on its own, and the other succeeds. -/
def abortedRun : List Event :=
  [.happen [] (.addWork plainWork), .happen [] (.addWork plainWork), .happen [0] .shutdown,
    returning .WORK_RUNNING, returning .WORK_RUNNING, returning .WORK_RUNNING,
    returning .WORK_SUCCESS, returning .WORK_SUCCESS]

/-- A child that waits like its parent is shut down on its own. -/
def strandedRun : List Event :=
  [.happen [] (.addWork plainWork), returning .WORK_WAITING, returning .WORK_WAITING,
    .happen [0] .shutdown]

theorem run_children_accounted_aborted :
    ∃ root, run parentWork abortedRun = some root ∧ Everywhere Accounted root :=
  ⟨_, rfl, run_children_accounted parentWork abortedRun _ rfl⟩

theorem run_forgets_aborted :
    (run parentWork abortedRun).map (fun root => (root.basic.mState, root.basic.endings)) =
        some (.SUCCESS, [⟨.ABORTED, true⟩, ⟨.SUCCESS, false⟩]) ∧
      (run parentWork strandedRun).map (fun root =>
        (root.basic.mState, root.mChildren.map getState)) = some (.WAITING, [.WORK_RUNNING]) :=
  ⟨rfl, rfl⟩

end Runs

end Node

end ViiCore.Work
