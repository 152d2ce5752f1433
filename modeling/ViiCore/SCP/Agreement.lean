import Mathlib.Data.Fin.Basic
import Mathlib.Logic.Function.Basic
import ViiCore.SCP.BallotRun

/-!
Agreement between the correct nodes of a network.

Correct nodes run the ballot protocol; every other node may say anything. A statement of a
correct node can be delivered at any time and any number of times once it was emitted.
What a correct node has said about a commit value binds it for good, and a node that
externalizes a value can point to a quorum whose correct members are all bound to it; two
such quorums meet in a correct node.
-/

namespace ViiCore.SCP

variable {NodeID Hash Value : Type}
  [DecidableEq NodeID] [DecidableEq Hash] [LinearOrder Value] [OrderBot Value]

/-! ### The network -/

structure Network (NodeID Hash : Type) where
  slotIndex : Nat
  correct : NodeID → Prop
  quorumSet : NodeID → SCPQuorumSet NodeID
  quorumSetHash : NodeID → Hash

namespace Network

variable (network : Network NodeID Hash)

/-- A set of nodes that satisfies the quorum set of each of its correct members. The faulty
members may have declared any quorum set. -/
def IsQuorum (nodes : List NodeID) : Prop :=
  ∀ nodeID ∈ nodes, network.correct nodeID → isQuorumSlice nodes (network.quorumSet nodeID) = true

/-- Two quorums with a correct member share a correct member. -/
def Intersects : Prop :=
  ∀ left right : List NodeID, network.IsQuorum left → network.IsQuorum right →
    (∃ nodeID ∈ left, network.correct nodeID) → (∃ nodeID ∈ right, network.correct nodeID) →
      ∃ nodeID ∈ left, nodeID ∈ right ∧ network.correct nodeID

/-- What a node's slot offers: its own quorum set and, for the hash of a correct node, no
other quorum set than that node's. -/
structure Offers (nodeID : NodeID) (slot : SlotContext NodeID Hash Value) : Prop where
  slotIndex : slot.slotIndex = network.slotIndex
  localNodeID : slot.localNodeID = nodeID
  quorumSet : slot.quorumSet = network.quorumSet nodeID
  quorumSetHash : slot.quorumSetHash = network.quorumSetHash nodeID
  resolved : ∀ other, network.correct other → ∀ qSet,
    slot.getQSet (network.quorumSetHash other) = some qSet → qSet = network.quorumSet other

abbrev State (NodeID Hash Value : Type) := NodeID → Outcome NodeID Hash Value

def start (isValidator : NodeID → Bool) : State NodeID Hash Value :=
  fun nodeID => ⟨none, BallotState.initial (isValidator nodeID)⟩

/-- A correct node makes a call: a timer or nomination result of its own, or any statement
that claims to be from a faulty node, or one that a correct node has emitted. -/
inductive Moves : State NodeID Hash Value → State NodeID Hash Value → Prop
  | perform (state : State NodeID Hash Value) (nodeID : NodeID) (event : Event NodeID Hash Value)
      (correct : network.correct nodeID) (offers : network.Offers nodeID event.slot)
      (delivered : ∀ st, event.call = .processEnvelope st → network.correct st.nodeID →
        st ∈ (state st.nodeID).state.view.emitted) :
      Moves state (Function.update state nodeID (event.perform (state nodeID)))

end Network

/-! ### What binds a correct node -/

section Bound

variable {network : Network NodeID Hash}

abbrev Views (NodeID Hash Value : Type) := NodeID → BallotView NodeID Hash Value

def Backing (network : Network NodeID Hash) (views : Views NodeID Hash Value) (value : Value)
    (nodes : List NodeID) : Prop :=
  ∀ nodeID ∈ nodes, network.correct nodeID →
    isQuorumSlice nodes (network.quorumSet nodeID) = true ∧ Fixed value (views nodeID).core

/-- What holds of the correct nodes: each is bound by its own statements, each statement a
node holds from a correct node binds that node, and each externalized value is backed. -/
structure Consistent (network : Network NodeID Hash) (views : Views NodeID Hash Value) : Prop where
  coherent : ∀ nodeID, network.correct nodeID → Coherent (views nodeID).core
  decided : ∀ nodeID, network.correct nodeID → Decided (views nodeID)
  emitted : ∀ nodeID, network.correct nodeID → ∀ st ∈ (views nodeID).emitted,
    SpokenBy nodeID (network.quorumSetHash nodeID) (views nodeID).core st
  remembered : ∀ nodeID, network.correct nodeID → ∀ st ∈ (views nodeID).lastEnvelope,
    SpokenBy nodeID (network.quorumSetHash nodeID) (views nodeID).core st
  heard : ∀ nodeID, network.correct nodeID → ∀ other st,
    (views nodeID).core.mLatestEnvelopes.lookup other = some st → network.correct other →
      SpokenBy other (network.quorumSetHash other) (views other).core st
  backed : ∀ nodeID, network.correct nodeID →
    (views nodeID).core.mPhase = .SCP_PHASE_EXTERNALIZE →
      ∃ value nodes, nodeID ∈ nodes ∧ Fixed value (views nodeID).core ∧
        Backing network views value nodes

section

omit [DecidableEq Hash] [LinearOrder Value] [OrderBot Value]

theorem Backing.append {views : Views NodeID Hash Value} {value : Value} {left right : List NodeID}
    (first : Backing network views value left) (second : Backing network views value right) :
    Backing network views value (left ++ right) := by
  intro nodeID member correct
  rcases List.mem_append.mp member with inLeft | inRight
  · obtain ⟨slice, fixed⟩ := first nodeID inLeft correct
    exact ⟨isQuorumSlice_mono (List.subset_append_left _ _) _ slice, fixed⟩
  · obtain ⟨slice, fixed⟩ := second nodeID inRight correct
    exact ⟨isQuorumSlice_mono (List.subset_append_right _ _) _ slice, fixed⟩

theorem Backing.close {views : Views NodeID Hash Value} {value : Value} (nodes : List NodeID)
    (members : ∀ nodeID ∈ nodes, network.correct nodeID →
      isQuorumSlice nodes (network.quorumSet nodeID) = true ∧ Fixed value (views nodeID).core ∨
        ∃ others, nodeID ∈ others ∧ Backing network views value others) :
    ∃ more, Backing network views value (nodes ++ more) := by
  -- Collect the backing of every member that has one of its own.
  have collect (part : List NodeID) (subset : part ⊆ nodes) :
      ∃ more, Backing network views value more ∧
        ∀ nodeID ∈ part, network.correct nodeID →
          isQuorumSlice nodes (network.quorumSet nodeID) = true ∧ Fixed value (views nodeID).core ∨
            nodeID ∈ more := by
    induction part with
    | nil => exact ⟨[], fun _ impossible => (by cases impossible), fun _ impossible => (by cases impossible)⟩
    | cons head rest ih =>
        obtain ⟨more, backing, covered⟩ := ih (fun _ member => subset (List.mem_cons_of_mem _ member))
        by_cases own : network.correct head ∧ ¬ (isQuorumSlice nodes (network.quorumSet head) = true ∧
            Fixed value (views head).core)
        · rcases members head (subset List.mem_cons_self) own.1 with satisfied | ⟨others, inside, theirs⟩
          · exact absurd satisfied own.2
          · refine ⟨others ++ more, theirs.append backing, ?_⟩
            intro nodeID member correct
            rcases List.mem_cons.mp member with rfl | inRest
            · exact Or.inr (List.mem_append_left _ inside)
            · rcases covered nodeID inRest correct with satisfied | found
              · exact Or.inl satisfied
              · exact Or.inr (List.mem_append_right _ found)
        · refine ⟨more, backing, ?_⟩
          intro nodeID member correct
          rcases List.mem_cons.mp member with rfl | inRest
          · exact Or.inl (not_not.mp fun refused => own ⟨correct, refused⟩)
          · exact covered nodeID inRest correct
  obtain ⟨more, backing, covered⟩ := collect nodes (fun _ member => member)
  refine ⟨more, ?_⟩
  intro nodeID member correct
  have fromMore (inMore : nodeID ∈ more) : isQuorumSlice (nodes ++ more) (network.quorumSet nodeID) = true ∧
      Fixed value (views nodeID).core := by
    obtain ⟨slice, fixed⟩ := backing nodeID inMore correct
    exact ⟨isQuorumSlice_mono (List.subset_append_right _ _) _ slice, fixed⟩
  rcases List.mem_append.mp member with inNodes | inMore
  · rcases covered nodeID inNodes correct with ⟨slice, fixed⟩ | inMore
    · exact ⟨isQuorumSlice_mono (List.subset_append_left _ _) _ slice, fixed⟩
    · exact fromMore inMore
  · exact fromMore inMore

theorem Backing.mono {views later : Views NodeID Hash Value} {value : Value} {nodes : List NodeID}
    (backing : Backing network views value nodes)
    (kept : ∀ nodeID, network.correct nodeID → Fixed value (views nodeID).core →
      Fixed value (later nodeID).core) : Backing network later value nodes := by
  intro nodeID member correct
  obtain ⟨slice, fixed⟩ := backing nodeID member correct
  exact ⟨slice, kept nodeID correct fixed⟩

end

omit [DecidableEq Hash] [OrderBot Value] in
theorem Consistent.move {views : Views NodeID Hash Value} (consistent : Consistent network views)
    (nodeID : NodeID) (correct : network.correct nodeID) (next : BallotView NodeID Hash Value)
    (coherent : Coherent next.core) (decided : Decided next)
    (fixed : ∀ value, Fixed value (views nodeID).core → Fixed value next.core)
    (bound : ∀ st, SpokenBy nodeID (network.quorumSetHash nodeID) (views nodeID).core st →
      SpokenBy nodeID (network.quorumSetHash nodeID) next.core st)
    (emitted : ∀ st ∈ next.emitted,
      SpokenBy nodeID (network.quorumSetHash nodeID) next.core st)
    (remembered : ∀ st ∈ next.lastEnvelope,
      SpokenBy nodeID (network.quorumSetHash nodeID) next.core st)
    (heard : ∀ other st, next.core.mLatestEnvelopes.lookup other = some st → network.correct other →
      SpokenBy other (network.quorumSetHash other) (Function.update views nodeID next other).core st)
    (backed : next.core.mPhase = .SCP_PHASE_EXTERNALIZE →
      ∃ value nodes, nodeID ∈ nodes ∧ Fixed value next.core ∧
        Backing network (Function.update views nodeID next) value nodes) :
    Consistent network (Function.update views nodeID next) := by
  have kept (value : Value) (other : NodeID) (_ : network.correct other)
      (before : Fixed value (views other).core) :
      Fixed value (Function.update views nodeID next other).core := by
    by_cases same : other = nodeID
    · subst same
      rw [Function.update_self]
      exact fixed value before
    · rw [Function.update_of_ne same]
      exact before
  refine ⟨?_, ?_, ?_, ?_, ?_, ?_⟩
  · intro other correctOther
    by_cases same : other = nodeID
    · subst same
      rw [Function.update_self]
      exact coherent
    · rw [Function.update_of_ne same]
      exact consistent.coherent other correctOther
  · intro other correctOther
    by_cases same : other = nodeID
    · subst same
      rw [Function.update_self]
      exact decided
    · rw [Function.update_of_ne same]
      exact consistent.decided other correctOther
  · intro other correctOther
    by_cases same : other = nodeID
    · subst same
      rw [Function.update_self]
      exact emitted
    · rw [Function.update_of_ne same]
      exact consistent.emitted other correctOther
  · intro other correctOther
    by_cases same : other = nodeID
    · subst same
      rw [Function.update_self]
      exact remembered
    · rw [Function.update_of_ne same]
      exact consistent.remembered other correctOther
  · intro holder correctHolder other st
    by_cases same : holder = nodeID
    · subst same
      rw [Function.update_self]
      exact heard other st
    · rw [Function.update_of_ne same]
      intro found correctOther
      have spoken := consistent.heard holder correctHolder other st found correctOther
      by_cases moved : other = nodeID
      · subst moved
        rw [Function.update_self]
        exact bound st spoken
      · rw [Function.update_of_ne moved]
        exact spoken
  · intro other correctOther final
    by_cases same : other = nodeID
    · subst same
      rw [Function.update_self] at final ⊢
      exact backed final
    · rw [Function.update_of_ne same] at final ⊢
      obtain ⟨value, nodes, member, here, backing⟩ := consistent.backed other correctOther final
      exact ⟨value, nodes, member, here, backing.mono (kept value)⟩

omit [DecidableEq Hash] [OrderBot Value] in
theorem Consistent.receive {views : Views NodeID Hash Value} (consistent : Consistent network views)
    (nodeID : NodeID) (correct : network.correct nodeID) (st : SCPStatement NodeID Hash Value)
    (delivered : network.correct st.nodeID → st ∈ (views st.nodeID).emitted) :
    Consistent network (Function.update views nodeID ((views nodeID).record st)) := by
  have unmoved (other : NodeID) (said : SCPStatement NodeID Hash Value)
      (spoken : SpokenBy other (network.quorumSetHash other) (views other).core said) :
      SpokenBy other (network.quorumSetHash other)
        (Function.update views nodeID ((views nodeID).record st) other).core said := by
    by_cases same : other = nodeID
    · subst same
      rw [Function.update_self]
      exact spoken
    · rw [Function.update_of_ne same]
      exact spoken
  have decided := consistent.decided nodeID correct
  refine consistent.move nodeID correct _ ((consistent.coherent nodeID correct).withLatest _)
    ⟨decided.undecided, decided.decided⟩ (fun value fixed => fixed.withLatest _) (fun _ spoken => spoken)
    (consistent.emitted nodeID correct) (consistent.remembered nodeID correct) ?_ ?_
  · intro other said found correctOther
    simp only [BallotView.record] at found
    by_cases same : other = st.nodeID
    · subst same
      rw [AList.lookup_insert] at found
      cases found
      exact unmoved _ _ (consistent.emitted _ correctOther _ (delivered correctOther))
    · rw [AList.lookup_insert_ne same] at found
      exact unmoved _ _ (consistent.heard nodeID correct other said found correctOther)
  · intro final
    obtain ⟨value, nodes, member, fixed, backing⟩ := consistent.backed nodeID correct final
    refine ⟨value, nodes, member, fixed.withLatest _, backing.mono ?_⟩
    intro other _ before
    by_cases same : other = nodeID
    · subst same
      rw [Function.update_self]
      exact before.withLatest _
    · rw [Function.update_of_ne same]
      exact before

omit [DecidableEq Hash] in
theorem Announced.recorded {slot : SlotContext NodeID Hash Value}
    {core announced : BallotCore NodeID Hash Value} (told : Announced slot core announced)
    {st : SCPStatement NodeID Hash Value}
    (found : announced.mLatestEnvelopes.lookup slot.localNodeID = some st) :
    Own slot announced st := by
  cases told with
  | already made created known =>
      rw [known] at found
      cases found
      exact currentStatement_own created
  | record made created accepted =>
      rw [AList.lookup_insert] at found
      cases found
      exact currentStatement_own created

omit [DecidableEq Hash] [OrderBot Value] in
/-- A ratified commit comes from a quorum bound to its value, except for members that have
externalized it and are backed on their own. -/
theorem Consistent.ratified {views : Views NodeID Hash Value} (consistent : Consistent network views)
    {slot : SlotContext NodeID Hash Value} (nodeID : NodeID) (correct : network.correct nodeID)
    (offers : network.Offers nodeID slot) (c h : SCPBallot Value)
    (ratified : federatedRatify slot (views nodeID).core.mLatestEnvelopes
      (commitPredicate h (c.counter, h.counter)) = true) :
    ∃ nodes, isQuorumSlice nodes (network.quorumSet nodeID) = true ∧
      Backing network views h.value nodes := by
  obtain ⟨nodes, members, slice⟩ := LocalNode.isQuorum_supported ratified
  rw [offers.quorumSet] at slice
  suffices closed : ∃ more, Backing network views h.value (nodes ++ more) by
    obtain ⟨more, backing⟩ := closed
    exact ⟨nodes ++ more, isQuorumSlice_mono (List.subset_append_left _ _) _ slice, backing⟩
  refine Backing.close nodes ?_
  intro other member correctOther
  obtain ⟨st, found, passes, own, resolved, satisfied⟩ := members other member
  change commitPredicate h (c.counter, h.counter) st.pledges = true at passes
  obtain ⟨sender, said⟩ := consistent.heard nodeID correct other st found correctOther
  have coherent := consistent.coherent other correctOther
  -- A node that has accepted a commit is bound to the value of any commit it holds.
  have boundTo (started : (views other).core.mPhase ≠ .SCP_PHASE_PREPARE) (commit : SCPBallot Value)
      (commitAt : commit ∈ (views other).core.mCommit) (same : commit.value = h.value) :
      Fixed h.value (views other).core := by
    obtain ⟨value, fixed⟩ := coherent.fixed started
    rw [← same, fixed.commit_value commit commitAt]
    exact fixed
  cases pledges : st.pledges with
  | prepare quorumSetHash ballot prepared prime nC nH =>
      rw [pledges] at passes
      cases passes
  | confirm ballot nPrepared nCommit nH quorumSetHash =>
      left
      rw [pledges] at passes said
      simp only [commitPredicate, Bool.and_eq_true] at passes
      obtain ⟨sameHash, started, commit, commitAt, sameValue⟩ := said
      simp only [getQuorumSetFromStatement, pledges, sameHash] at resolved
      rw [offers.resolved other correctOther own resolved] at satisfied
      refine ⟨satisfied, boundTo started commit commitAt ?_⟩
      exact sameValue.trans ((areBallotsCompatible_iff _ _).mp passes.1).symm
  | externalize commitBallot nH quorumSetHash =>
      right
      rw [pledges] at passes said
      simp only [commitPredicate, Bool.and_eq_true] at passes
      obtain ⟨final, commit, commitAt, sameValue⟩ := said
      obtain ⟨value, others, inside, fixed, backing⟩ := consistent.backed other correctOther final
      have same : value = h.value := by
        have compatible := (areBallotsCompatible_iff _ _).mp passes.1
        exact (fixed.commit_value commit commitAt).symm.trans (sameValue.trans compatible.symm)
      exact ⟨others, inside, same ▸ backing⟩

section

omit [DecidableEq Hash]

/-- A step into EXTERNALIZE rests on a ratified commit, whose value it leaves in `c`. -/
theorem Step.ratifies {slot : SlotContext NodeID Hash Value} {call : Call NodeID Hash Value}
    {view next : BallotView NodeID Hash Value} (step : Step slot call view next)
    (running : view.core.mPhase ≠ .SCP_PHASE_EXTERNALIZE)
    (final : next.core.mPhase = .SCP_PHASE_EXTERNALIZE) :
    ∃ c h : SCPBallot Value, c ∈ next.core.mCommit ∧ c.value = h.value ∧
      federatedRatify slot view.core.mLatestEnvelopes
        (commitPredicate h (c.counter, h.counter)) = true := by
  cases step with
  | change changed announced confirmations values made told =>
      have finalChange : changed.mPhase = .SCP_PHASE_EXTERNALIZE := by
        rw [told.frame] at final
        exact final
      have sameCommit : announced.mCommit = changed.mCommit := by rw [told.frame]
      cases made with
      | bump => exact absurd finalChange running
      | acceptPrepared =>
          rw [BallotCore.acceptPrepared_eq] at finalChange
          exact absurd finalChange running
      | confirmPrepared =>
          rw [BallotCore.confirmPrepared_phase] at finalChange
          exact absurd finalChange running
      | acceptCommit =>
          rw [BallotCore.acceptCommit_phase] at finalChange
          split_ifs at finalChange
          exact absurd finalChange running
      | confirmCommit _ c h confirming counter ordered sameValue compatible ratified =>
          refine ⟨c, h, ?_, sameValue, ratified⟩
          show c ∈ announced.mCommit
          rw [sameCommit]
          simp
  | override => exact absurd final running
  | remember => exact absurd final running
  | emit => exact absurd final running

theorem Consistent.step {views : Views NodeID Hash Value} (consistent : Consistent network views)
    {slot : SlotContext NodeID Hash Value} {call : Call NodeID Hash Value} (nodeID : NodeID)
    (correct : network.correct nodeID) (offers : network.Offers nodeID slot)
    {next : BallotView NodeID Hash Value} (step : Step slot call (views nodeID) next) :
    Consistent network (Function.update views nodeID next) := by
  have coherent := consistent.coherent nodeID correct
  have coherentNext := step.coherent coherent
  have own (core : BallotCore NodeID Hash Value) (st : SCPStatement NodeID Hash Value) :
      Own slot core st ↔ SpokenBy nodeID (network.quorumSetHash nodeID) core st := by
    rw [Own, offers.localNodeID, offers.quorumSetHash]
  have bound (st : SCPStatement NodeID Hash Value)
      (spoken : SpokenBy nodeID (network.quorumSetHash nodeID) (views nodeID).core st) :
      SpokenBy nodeID (network.quorumSetHash nodeID) next.core st :=
    (own _ _).mp (Path.own (Relation.ReflTransGen.single step) coherent ((own _ _).mpr spoken))
  have kept (value : Value) (other : NodeID) (before : Fixed value (views other).core) :
      Fixed value (Function.update views nodeID next other).core := by
    by_cases same : other = nodeID
    · subst same
      rw [Function.update_self]
      exact step.fixed before
    · rw [Function.update_of_ne same]
      exact before
  refine consistent.move nodeID correct next coherentNext (step.decided (consistent.decided nodeID correct))
    (fun value fixed => step.fixed fixed) bound ?_ ?_ ?_ ?_
  · -- Only the statement that was last remembered is emitted.
    intro st member
    have before := consistent.emitted nodeID correct
    cases step with
    | change => exact bound st (before st member)
    | override => exact bound st (before st member)
    | remember => exact bound st (before st member)
    | emit sent last =>
        rcases List.mem_append.mp member with earlier | now
        · exact bound st (before st earlier)
        · rw [List.mem_singleton.mp now]
          exact bound sent (consistent.remembered nodeID correct sent last)
  · intro st member
    have before := consistent.remembered nodeID correct
    cases step with
    | change => exact bound st (before st member)
    | override => exact bound st (before st member)
    | remember said saidOwn =>
        cases member
        exact bound st ((own _ _).mp saidOwn)
    | emit => exact bound st (before st member)
  · intro other st found correctOther
    by_cases same : other = nodeID
    · subst same
      rw [Function.update_self]
      have before := consistent.heard other correct other st
      cases step with
      | change changed announced confirmations values made told =>
          rw [← own]
          exact told.recorded (by rw [offers.localNodeID]; exact found)
      | override => exact bound st (before found correctOther)
      | remember => exact bound st (before found correctOther)
      | emit => exact bound st (before found correctOther)
    · rw [Function.update_of_ne same]
      rw [step.others other (by rw [offers.localNodeID]; exact same)] at found
      exact consistent.heard nodeID correct other st found correctOther
  · intro final
    by_cases before : (views nodeID).core.mPhase = .SCP_PHASE_EXTERNALIZE
    · obtain ⟨value, nodes, member, fixed, backing⟩ := consistent.backed nodeID correct before
      exact ⟨value, nodes, member, step.fixed fixed,
        backing.mono fun other _ held => kept value other held⟩
    · obtain ⟨c, h, committed, sameValue, ratified⟩ := step.ratifies before final
      obtain ⟨nodes, slice, backing⟩ := consistent.ratified nodeID correct offers c h ratified
      have fixed : Fixed h.value next.core := by
        obtain ⟨value, fixed⟩ := coherentNext.fixed (by rw [final]; decide)
        rw [← sameValue, fixed.commit_value c committed]
        exact fixed
      refine ⟨h.value, nodeID :: nodes, List.mem_cons_self, fixed, ?_⟩
      intro other member correctOther
      rcases List.mem_cons.mp member with rfl | inNodes
      · rw [Function.update_self]
        exact ⟨isQuorumSlice_mono (List.subset_cons_self _ _) _ slice, fixed⟩
      · obtain ⟨satisfied, held⟩ := backing other inNodes correctOther
        exact ⟨isQuorumSlice_mono (List.subset_cons_self _ _) _ satisfied, kept _ other held⟩

theorem Consistent.path {views : Views NodeID Hash Value} (consistent : Consistent network views)
    {slot : SlotContext NodeID Hash Value} {call : Call NodeID Hash Value} (nodeID : NodeID)
    (correct : network.correct nodeID) (offers : network.Offers nodeID slot)
    {next : BallotView NodeID Hash Value} (path : Path slot call (views nodeID) next) :
    Consistent network (Function.update views nodeID next) := by
  induction path with
  | refl =>
      rw [Function.update_eq_self]
      exact consistent
  | tail _ step ih =>
      rename_i middle last reached
      have fromMiddle : Step slot call (Function.update views nodeID middle nodeID) last := by
        rw [Function.update_self]
        exact step
      have later := ih.step nodeID correct offers fromMiddle
      rw [Function.update_idem] at later
      exact later

end

/-- The views stand for the nodes: a node that has stopped keeps the last view before the
fault, which has the same emitted statements and externalized values. -/
structure Stands (network : Network NodeID Hash) (state : Network.State NodeID Hash Value)
    (views : Views NodeID Hash Value) : Prop where
  running : ∀ nodeID, network.correct nodeID → (state nodeID).fault = none →
    views nodeID = (state nodeID).state.view
  emitted : ∀ nodeID, network.correct nodeID →
    (views nodeID).emitted = (state nodeID).state.view.emitted
  externalized : ∀ nodeID, network.correct nodeID →
    (views nodeID).externalized = (state nodeID).state.view.externalized

omit [DecidableEq Hash] [LinearOrder Value] [OrderBot Value] in
theorem Stands.update {state : Network.State NodeID Hash Value} {views : Views NodeID Hash Value}
    (stands : Stands network state views) (nodeID : NodeID) (outcome : Outcome NodeID Hash Value)
    (view : BallotView NodeID Hash Value)
    (running : outcome.fault = none → view = outcome.state.view)
    (emitted : view.emitted = outcome.state.view.emitted)
    (externalized : view.externalized = outcome.state.view.externalized) :
    Stands network (Function.update state nodeID outcome) (Function.update views nodeID view) := by
  refine ⟨?_, ?_, ?_⟩ <;> intro other correct <;> by_cases same : other = nodeID
  · subst same
    rw [Function.update_self, Function.update_self]
    exact running
  · rw [Function.update_of_ne same, Function.update_of_ne same]
    exact stands.running other correct
  · subst same
    rw [Function.update_self, Function.update_self]
    exact emitted
  · rw [Function.update_of_ne same, Function.update_of_ne same]
    exact stands.emitted other correct
  · subst same
    rw [Function.update_self, Function.update_self]
    exact externalized
  · rw [Function.update_of_ne same, Function.update_of_ne same]
    exact stands.externalized other correct

omit [DecidableEq Hash] [OrderBot Value] in
theorem Network.start_consistent (network : Network NodeID Hash) (isValidator : NodeID → Bool) :
    ∃ views : Views NodeID Hash Value,
      Stands network (Network.start isValidator) views ∧ Consistent network views := by
  refine ⟨fun nodeID => (BallotState.initial (isValidator nodeID)).view,
    ⟨fun _ _ _ => rfl, fun _ _ => rfl, fun _ _ => rfl⟩, ?_, ?_, ?_, ?_, ?_, ?_⟩
  · exact fun nodeID _ => BallotState.initial_coherent (isValidator nodeID)
  · exact fun nodeID _ => ⟨fun _ => rfl, fun final => (by cases final)⟩
  · intro nodeID _ st member
    cases member
  · intro nodeID _ st member
    cases member
  · intro nodeID _ other st found
    cases found
  · intro nodeID _ final
    cases final

theorem Network.moves_consistent {network : Network NodeID Hash}
    {state next : Network.State NodeID Hash Value} (moves : network.Moves state next)
    (held : ∃ views, Stands network state views ∧ Consistent network views) :
    ∃ views, Stands network next views ∧ Consistent network views := by
  obtain ⟨views, stands, consistent⟩ := held
  cases moves with
  | perform nodeID event correct offers delivered =>
      cases stopped : (state nodeID).fault with
      | some fault =>
          have same : event.perform (state nodeID) = state nodeID := by
            unfold Event.perform
            rw [stopped]
          rw [same, Function.update_eq_self]
          exact ⟨views, stands, consistent⟩
      | none =>
          have atNode := stands.running nodeID correct stopped
          have coherent : Coherent (state nodeID).state.toBallotCore := by
            have coherent := consistent.coherent nodeID correct
            rw [atNode] at coherent
            exact coherent
          obtain ⟨received, from_, result⟩ := event.perform_cases (state nodeID).state coherent
          have atReceived : Consistent network (Function.update views nodeID received) := by
            rcases from_ with rfl | ⟨st, called, _, rfl⟩
            · rw [← atNode, Function.update_eq_self]
              exact consistent
            · rw [← atNode]
              refine consistent.receive nodeID correct st fun correctSender => ?_
              rw [stands.emitted st.nodeID correctSender]
              exact delivered st called correctSender
          -- From here on the node moves alone.
          have along {last : BallotView NodeID Hash Value}
              (path : Path event.slot event.call received last) :
              Consistent network (Function.update views nodeID last) := by
            have fromReceived : Path event.slot event.call
                (Function.update views nodeID received nodeID) last := by
              rw [Function.update_self]
              exact path
            have later := atReceived.path nodeID correct offers fromReceived
            rw [Function.update_idem] at later
            exact later
          have performed : event.perform (state nodeID) =
              event.perform ⟨none, (state nodeID).state⟩ := by
            rw [← (state nodeID).eq_completed stopped]
          rw [performed]
          rcases result with ⟨_, path⟩ | ⟨failure, faulted, reached, path, emitted, externalized, _⟩
          · exact ⟨_, stands.update nodeID _ _ (fun _ => rfl) rfl rfl, along path⟩
          · refine ⟨_, stands.update nodeID _ reached (fun completed => ?_) emitted.symm externalized.symm,
              along path⟩
            rw [completed] at faulted
            cases faulted

theorem Network.reached_consistent {network : Network NodeID Hash} {isValidator : NodeID → Bool}
    {state : Network.State NodeID Hash Value}
    (reached : Relation.ReflTransGen network.Moves (Network.start isValidator) state) :
    ∃ views, Stands network state views ∧ Consistent network views := by
  induction reached with
  | refl => exact network.start_consistent isValidator
  | tail _ moves ih => exact Network.moves_consistent moves ih

/-- Two correct nodes never externalize different values. -/
theorem Network.agreement (network : Network NodeID Hash) (intersects : network.Intersects)
    (isValidator : NodeID → Bool) (state : Network.State NodeID Hash Value)
    (reached : Relation.ReflTransGen network.Moves (Network.start isValidator) state)
    (left right : NodeID) (correctLeft : network.correct left) (correctRight : network.correct right)
    (x y : Value) (leftDecides : x ∈ (state left).state.view.externalized)
    (rightDecides : y ∈ (state right).state.view.externalized) : x = y := by
  obtain ⟨views, stands, consistent⟩ := Network.reached_consistent reached
  have support (nodeID : NodeID) (correct : network.correct nodeID) (value : Value)
      (decides : value ∈ (state nodeID).state.view.externalized) :
      ∃ nodes, nodeID ∈ nodes ∧ Backing network views value nodes := by
    rw [← stands.externalized nodeID correct] at decides
    have decided := consistent.decided nodeID correct
    have final : (views nodeID).core.mPhase = .SCP_PHASE_EXTERNALIZE := by
      by_contra running
      rw [decided.undecided running] at decides
      cases decides
    obtain ⟨commit, commitAt, only⟩ := decided.decided final
    rw [only, List.mem_singleton] at decides
    obtain ⟨bound, nodes, member, fixed, backing⟩ := consistent.backed nodeID correct final
    rw [decides, fixed.commit_value commit commitAt]
    exact ⟨nodes, member, backing⟩
  obtain ⟨leftNodes, leftMember, leftBacking⟩ := support left correctLeft x leftDecides
  obtain ⟨rightNodes, rightMember, rightBacking⟩ := support right correctRight y rightDecides
  obtain ⟨shared, inLeft, inRight, correct⟩ := intersects leftNodes rightNodes
    (fun nodeID member honest => (leftBacking nodeID member honest).1)
    (fun nodeID member honest => (rightBacking nodeID member honest).1)
    ⟨left, leftMember, correctLeft⟩ ⟨right, rightMember, correctRight⟩
  obtain ⟨current, currentAt, _⟩ := (leftBacking shared inLeft correct).2.current
  rw [← (leftBacking shared inLeft correct).2.current_value current currentAt]
  exact (rightBacking shared inRight correct).2.current_value current currentAt

end Bound

/-! ### A leader and a follower -/

/-- Node 0 decides alone, node 1 needs node 0, and node 2 is faulty. -/
def leaderNetwork : Network (Fin 3) (Fin 3) :=
  { slotIndex := 1
    correct := fun nodeID => nodeID ≠ 2
    quorumSet := fun nodeID =>
      match nodeID with
      | 0 => .mk 1 [0] []
      | 1 => .mk 2 [0, 1] []
      | 2 => .mk 1 [2] []
    quorumSetHash := fun nodeID => nodeID }

def leaderSlot (nodeID : Fin 3) : SlotContext (Fin 3) (Fin 3) Nat :=
  { slotIndex := 1
    localNodeID := nodeID
    quorumSet := leaderNetwork.quorumSet nodeID
    quorumSetHash := nodeID
    getQSet := fun hash => some (leaderNetwork.quorumSet hash)
    validateValue := fun _ => .kFullyValidatedValue
    latestCompositeCandidate := 0 }

def leaderBumps : Event (Fin 3) (Fin 3) Nat := ⟨leaderSlot 0, .bumpState 7 true⟩

def followerHears : Event (Fin 3) (Fin 3) Nat :=
  ⟨leaderSlot 1, .processEnvelope ⟨0, 1, .externalize ⟨1, 7⟩ 1 0⟩⟩

def leaderDecided : Network.State (Fin 3) (Fin 3) Nat :=
  Function.update (Network.start (fun _ => true)) 0
    (leaderBumps.perform (Network.start (fun _ => true) 0))

def bothDecided : Network.State (Fin 3) (Fin 3) Nat :=
  Function.update leaderDecided 1 (followerHears.perform (leaderDecided 1))

theorem leaderNetwork_intersects : leaderNetwork.Intersects := by
  have pair : ∀ first second : Bool, sliceCountdown 2 [first, second] = true →
      first = true := by decide
  have all (nodes : List (Fin 3)) (quorum : leaderNetwork.IsQuorum nodes)
      (honest : ∃ nodeID ∈ nodes, leaderNetwork.correct nodeID) : 0 ∈ nodes := by
    obtain ⟨nodeID, member, correct⟩ := honest
    have own := quorum nodeID member correct
    match nodeID, correct with
    | 0, _ => exact member
    | 1, _ => exact of_decide_eq_true (pair _ _ own)
    | 2, wrong => exact absurd rfl wrong
  intro left right leftQuorum rightQuorum leftHonest rightHonest
  exact ⟨0, all left leftQuorum leftHonest, all right rightQuorum rightHonest,
    show (0 : Fin 3) ≠ 2 by decide⟩

theorem leaderNetwork_agreement :
    (bothDecided 0).state.view.externalized = [7] ∧ (bothDecided 1).state.view.externalized = [7] ∧
      ∀ x ∈ (bothDecided 0).state.view.externalized,
        ∀ y ∈ (bothDecided 1).state.view.externalized, x = y := by
  have offers (nodeID : Fin 3) : leaderNetwork.Offers nodeID (leaderSlot nodeID) :=
    ⟨rfl, rfl, rfl, rfl, fun other _ qSet found => (Option.some.inj found).symm⟩
  have reached : Relation.ReflTransGen leaderNetwork.Moves (Network.start (fun _ => true)) bothDecided := by
    refine Relation.ReflTransGen.tail (Relation.ReflTransGen.single
      (.perform _ 0 leaderBumps (show (0 : Fin 3) ≠ 2 by decide) (offers 0) ?_))
      (.perform leaderDecided 1 followerHears (show (1 : Fin 3) ≠ 2 by decide) (offers 1) ?_)
    · intro st called
      cases called
    · intro st called correct
      cases called
      decide +kernel
  refine ⟨by decide +kernel, by decide +kernel, ?_⟩
  intro x first y second
  exact leaderNetwork.agreement leaderNetwork_intersects (fun _ => true) bothDecided reached 0 1
    (show (0 : Fin 3) ≠ 2 by decide) (show (1 : Fin 3) ≠ 2 by decide) x y first second

/-! ### Quorums through faulty members -/

/-- The same intersection, over quorums that also satisfy what the faulty nodes declared. -/
def Network.DeclaredIntersects (network : Network NodeID Hash) : Prop :=
  ∀ left right : List NodeID,
    (∀ nodeID ∈ left, isQuorumSlice left (network.quorumSet nodeID) = true) →
    (∀ nodeID ∈ right, isQuorumSlice right (network.quorumSet nodeID) = true) →
    (∃ nodeID ∈ left, network.correct nodeID) → (∃ nodeID ∈ right, network.correct nodeID) →
      ∃ nodeID ∈ left, nodeID ∈ right ∧ network.correct nodeID

/-- Nodes 0 and 1 each trust only the faulty node 2, which declares that it needs both. -/
def bridgedNetwork : Network (Fin 3) (Fin 3) :=
  { slotIndex := 1
    correct := fun nodeID => nodeID ≠ 2
    quorumSet := fun nodeID =>
      match nodeID with
      | 0 => .mk 2 [0, 2] []
      | 1 => .mk 2 [1, 2] []
      | 2 => .mk 3 [0, 1, 2] []
    quorumSetHash := fun nodeID => nodeID }

def bridgedSlot (nodeID : Fin 3) : SlotContext (Fin 3) (Fin 3) Nat :=
  { slotIndex := 1
    localNodeID := nodeID
    quorumSet := bridgedNetwork.quorumSet nodeID
    quorumSetHash := nodeID
    getQSet := fun hash => some (bridgedNetwork.quorumSet hash)
    validateValue := fun _ => .kFullyValidatedValue
    latestCompositeCandidate := 0 }

def bridgeExternalizes (nodeID : Fin 3) (value : Nat) : Event (Fin 3) (Fin 3) Nat :=
  ⟨bridgedSlot nodeID, .processEnvelope ⟨2, 1, .externalize ⟨1, value⟩ 1 2⟩⟩

def bridgedMiddle : Network.State (Fin 3) (Fin 3) Nat :=
  Function.update (Network.start (fun _ => true)) 0
    ((bridgeExternalizes 0 1).perform (Network.start (fun _ => true) 0))

def bridgedEnd : Network.State (Fin 3) (Fin 3) Nat :=
  Function.update bridgedMiddle 1 ((bridgeExternalizes 1 2).perform (bridgedMiddle 1))

theorem bridgedNetwork_declared : bridgedNetwork.DeclaredIntersects := by
  have pair : ∀ first second : Bool, sliceCountdown 2 [first, second] = true →
      first = true ∧ second = true := by decide
  have triple : ∀ first second third : Bool, sliceCountdown 3 [first, second, third] = true →
      first = true := by decide
  -- A quorum with a correct node contains node 2, and node 2 asks for all three.
  have all (nodes : List (Fin 3))
      (quorum : ∀ nodeID ∈ nodes, isQuorumSlice nodes (bridgedNetwork.quorumSet nodeID) = true)
      (honest : ∃ nodeID ∈ nodes, bridgedNetwork.correct nodeID) : 0 ∈ nodes := by
    obtain ⟨nodeID, member, correct⟩ := honest
    have own := quorum nodeID member
    have bridge : (2 : Fin 3) ∈ nodes := by
      match nodeID, correct with
      | 0, _ => exact of_decide_eq_true (pair _ _ own).2
      | 1, _ => exact of_decide_eq_true (pair _ _ own).2
      | 2, wrong => exact absurd rfl wrong
    exact of_decide_eq_true (triple _ _ _ (quorum 2 bridge))
  intro left right leftQuorum rightQuorum leftHonest rightHonest
  exact ⟨0, all left leftQuorum leftHonest, all right rightQuorum rightHonest,
    show (0 : Fin 3) ≠ 2 by decide⟩

theorem bridgedNetwork_disagrees :
    bridgedNetwork.DeclaredIntersects ∧
      Relation.ReflTransGen bridgedNetwork.Moves (Network.start (fun _ => true)) bridgedEnd ∧
      (bridgedEnd 0).state.view.externalized = [1] ∧
      (bridgedEnd 1).state.view.externalized = [2] := by
  have offers (nodeID : Fin 3) : bridgedNetwork.Offers nodeID (bridgedSlot nodeID) :=
    ⟨rfl, rfl, rfl, rfl, fun other _ qSet found => (Option.some.inj found).symm⟩
  refine ⟨bridgedNetwork_declared, ?_, by decide +kernel, by decide +kernel⟩
  refine Relation.ReflTransGen.tail (Relation.ReflTransGen.single
    (.perform _ 0 (bridgeExternalizes 0 1) (show (0 : Fin 3) ≠ 2 by decide) (offers 0) ?_))
    (.perform bridgedMiddle 1 (bridgeExternalizes 1 2) (show (1 : Fin 3) ≠ 2 by decide) (offers 1) ?_)
  · intro st called correct
    cases called
    exact absurd rfl correct
  · intro st called correct
    cases called
    exact absurd rfl correct

end ViiCore.SCP
