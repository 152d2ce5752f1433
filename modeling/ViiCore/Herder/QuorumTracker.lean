import Mathlib.Data.Finset.Card
import Mathlib.Data.Set.Finite.Basic
import Mathlib.Logic.Relation
import ViiCore.Library.FiniteMap
import ViiCore.Library.OrderedSet
import ViiCore.SCP.QuorumSetShape

/-!
The nodes that are transitively in the quorum of the local node (`herder/QuorumTracker.cpp`).

A node is recorded once it is named; its quorum set is a null pointer until it is known. Pointers
are compared as pointers, so they are an arbitrary type with the set each of them points to.
-/

namespace ViiCore.Herder

open SCP

variable {NodeID Ptr : Type} [LinearOrder NodeID]

abbrev TrackedQuorum (NodeID Ptr : Type) := FiniteMap.Map NodeID (Option Ptr)

structure QuorumTracker (NodeID Ptr : Type) where
  localNodeID : NodeID
  mQuorum : TrackedQuorum NodeID Ptr

namespace QuorumTracker

section Source

variable [DecidableEq Ptr] (target : Ptr → SCPQuorumSet NodeID)

def isNodeDefinitelyInQuorum (tracker : QuorumTracker NodeID Ptr) (id : NodeID) : Bool :=
  (tracker.mQuorum.lookup id).isSome

/-- `unordered_map::insert`, which keeps what is there. -/
def insertNew (mQuorum : TrackedQuorum NodeID Ptr) (id : NodeID) : TrackedQuorum NodeID Ptr :=
  if (mQuorum.lookup id).isSome then mQuorum else mQuorum.insert id none

/-- There is no result where a null pointer is followed. -/
def expand (tracker : QuorumTracker NodeID Ptr) (id : NodeID) (qSet : Option Ptr) :
    Option (Bool × QuorumTracker NodeID Ptr) :=
  match tracker.mQuorum.lookup id with
  | none => some (false, tracker)
  | some none => do
      let qSet ← qSet
      let mQuorum := tracker.mQuorum.insert id (some qSet)
      return (true, { tracker with mQuorum := (allNodes (target qSet)).foldl insertNew mQuorum })
  | some (some recorded) => some (some recorded = qSet, tracker)

def rebuildLoop (lookup : NodeID → Option Ptr) :
    (rounds : Nat) → (backlog : List NodeID) → TrackedQuorum NodeID Ptr →
      Option (TrackedQuorum NodeID Ptr)
  | 0, _, _ => none
  | _ + 1, [], mQuorum => some mQuorum
  | rounds + 1, n :: backlog, mQuorum =>
      match mQuorum.lookup n with
      | some (some _) => rebuildLoop lookup rounds backlog mQuorum
      | _ =>
          match lookup n with
          | some qSet =>
              rebuildLoop lookup rounds
                ((allNodes (target qSet)).foldl (fun set id => OrderedSet.insert id set) backlog)
                (mQuorum.insert n (some qSet))
          | none => rebuildLoop lookup rounds backlog (mQuorum.insert n none)

/-- There is no result where the rounds are not enough. -/
def rebuild (rounds : Nat) (tracker : QuorumTracker NodeID Ptr) (lookup : NodeID → Option Ptr) :
    Option (QuorumTracker NodeID Ptr) := do
  let mQuorum ← rebuildLoop target lookup rounds (OrderedSet.insert tracker.localNodeID []) ∅
  return { tracker with mQuorum }

def expandAll (tracker : QuorumTracker NodeID Ptr) :
    List (NodeID × Option Ptr) → Option (QuorumTracker NodeID Ptr)
  | [] => some tracker
  | (id, qSet) :: later => do
      let (_, tracker) ← tracker.expand target id qSet
      expandAll tracker later

end Source

/-! ### Reaching nodes -/

section Reaching

variable (target : Ptr → SCPQuorumSet NodeID)

def Names (setOf : NodeID → Option Ptr) (node other : NodeID) : Prop :=
  ∃ qSet, setOf node = some qSet ∧ other ∈ allNodes (target qSet)

def Reaches (setOf : NodeID → Option Ptr) : NodeID → NodeID → Prop :=
  Relation.ReflTransGen (Names target setOf)

def recorded (mQuorum : TrackedQuorum NodeID Ptr) (node : NodeID) : Option Ptr :=
  (mQuorum.lookup node).join

variable {target}

omit [LinearOrder NodeID] in
theorem Reaches.within {setOf : NodeID → Option Ptr} {first node : NodeID}
    (reaches : Reaches target setOf first node) {kept : NodeID → Prop} (start : kept first)
    (closed : ∀ node other, kept node → Names target setOf node other → kept other) :
    kept node := by
  induction reaches with
  | refl => exact start
  | tail _ names ih => exact closed _ _ ih names

theorem lookup_of_recorded {mQuorum : TrackedQuorum NodeID Ptr} {node : NodeID} {qSet : Ptr}
    (known : recorded mQuorum node = some qSet) : mQuorum.lookup node = some (some qSet) :=
  Option.join_eq_some_iff.mp known

end Reaching

/-! ### Rebuilding -/

section Rebuilding

variable {target : Ptr → SCPQuorumSet NodeID} {lookup : NodeID → Option Ptr} {first : NodeID}

structure Searching (target : Ptr → SCPQuorumSet NodeID) (lookup : NodeID → Option Ptr)
    (first : NodeID) (backlog : List NodeID) (mQuorum : TrackedQuorum NodeID Ptr) : Prop where
  reached : ∀ node, node ∈ backlog ∨ node ∈ mQuorum → Reaches target lookup first node
  looked : ∀ node qSet, mQuorum.lookup node = some qSet → lookup node = qSet
  started : first ∈ backlog ∨ first ∈ mQuorum
  followed : ∀ node other, node ∈ mQuorum → Names target lookup node other →
    other ∈ backlog ∨ other ∈ mQuorum

theorem Searching.initial : Searching target lookup first (OrderedSet.insert first []) ∅ where
  reached node place := by
    rcases place with waiting | recorded
    · obtain rfl := List.mem_singleton.mp waiting
      exact Relation.ReflTransGen.refl
    · exact absurd recorded (AList.notMem_empty node)
  looked node qSet known := by
    rw [AList.lookup_empty] at known
    cases known
  started := Or.inl (List.mem_singleton.mpr rfl)
  followed node other recorded := absurd recorded (AList.notMem_empty node)

variable {n : NodeID} {backlog : List NodeID} {mQuorum : TrackedQuorum NodeID Ptr}

theorem Searching.skip (searching : Searching target lookup first (n :: backlog) mQuorum)
    (recorded : n ∈ mQuorum) : Searching target lookup first backlog mQuorum := by
  have stays : ∀ node, node ∈ n :: backlog ∨ node ∈ mQuorum → node ∈ backlog ∨ node ∈ mQuorum := by
    intro node place
    rcases place with waiting | old
    · rcases List.mem_cons.mp waiting with rfl | later
      · exact Or.inr recorded
      · exact Or.inl later
    · exact Or.inr old
  constructor
  · intro node place
    exact searching.reached node (place.imp_left (List.mem_cons_of_mem n))
  · exact searching.looked
  · exact stays first searching.started
  · intro node other old names
    exact stays other (searching.followed node other old names)

theorem Searching.visit (searching : Searching target lookup first (n :: backlog) mQuorum)
    {rest : List NodeID}
    (waiting : ∀ node, node ∈ rest ↔ node ∈ backlog ∨ Names target lookup n node) :
    Searching target lookup first rest (mQuorum.insert n (lookup n)) := by
  have reached := searching.reached n (Or.inl (List.mem_cons_self ..))
  have stays : ∀ node, node ∈ n :: backlog ∨ node ∈ mQuorum →
      node ∈ rest ∨ node ∈ mQuorum.insert n (lookup n) := by
    intro node place
    rw [AList.mem_insert, waiting]
    rcases place with popped | old
    · rcases List.mem_cons.mp popped with same | later
      · exact Or.inr (Or.inl same)
      · exact Or.inl (Or.inl later)
    · exact Or.inr (Or.inr old)
  constructor
  · intro node place
    rw [AList.mem_insert, waiting] at place
    rcases place with (later | names) | same | old
    · exact searching.reached node (Or.inl (List.mem_cons_of_mem n later))
    · exact reached.tail names
    · exact same ▸ reached
    · exact searching.reached node (Or.inr old)
  · intro node qSet known
    by_cases same : node = n
    · subst same
      rw [AList.lookup_insert] at known
      exact Option.some.inj known
    · rw [AList.lookup_insert_ne same] at known
      exact searching.looked node qSet known
  · exact stays first searching.started
  · intro node other old names
    rcases (AList.mem_insert _).mp old with rfl | old
    · exact Or.inl ((waiting other).mpr (Or.inr names))
    · exact stays other (searching.followed node other old names)

/-- At the end the map is the nodes that are reached, with what the lookup gives for each. -/
structure Rebuilt (target : Ptr → SCPQuorumSet NodeID) (lookup : NodeID → Option Ptr)
    (first : NodeID) (mQuorum : TrackedQuorum NodeID Ptr) : Prop where
  keys : ∀ node, node ∈ mQuorum ↔ Reaches target lookup first node
  values : ∀ node, node ∈ mQuorum → mQuorum.lookup node = some (lookup node)

theorem Searching.done (searching : Searching target lookup first [] mQuorum) :
    Rebuilt target lookup first mQuorum := by
  have placed : ∀ node, node ∈ ([] : List NodeID) ∨ node ∈ mQuorum → node ∈ mQuorum :=
    fun node place => place.resolve_left (List.not_mem_nil)
  constructor
  · intro node
    constructor
    · intro recorded
      exact searching.reached node (Or.inr recorded)
    · intro reaches
      exact reaches.within (placed first searching.started) fun node other recorded names =>
        placed other (searching.followed node other recorded names)
  · intro node recorded
    obtain ⟨qSet, known⟩ := Option.isSome_iff_exists.mp (AList.lookup_isSome.mpr recorded)
    rw [known, searching.looked node qSet known]

def Open (mQuorum : TrackedQuorum NodeID Ptr) (node : NodeID) : Prop :=
  recorded mQuorum node = none

theorem mem_backlog (backlog nodes : List NodeID) (node : NodeID) :
    node ∈ nodes.foldl (fun set id => OrderedSet.insert id set) backlog ↔
      node ∈ backlog ∨ node ∈ nodes := by
  rw [OrderedSet.mem_foldl_insert]
  exact Or.comm

def Finishes (target : Ptr → SCPQuorumSet NodeID) (lookup : NodeID → Option Ptr) (first : NodeID)
    (backlog : List NodeID) (mQuorum : TrackedQuorum NodeID Ptr) : Prop :=
  ∃ rounds rebuilt, (∀ more, rounds ≤ more →
    rebuildLoop target lookup more backlog mQuorum = some rebuilt) ∧
      Rebuilt target lookup first rebuilt

theorem Finishes.of_next {rest : List NodeID} {mQuorum' : TrackedQuorum NodeID Ptr}
    (later : Finishes target lookup first rest mQuorum')
    (step : ∀ more, rebuildLoop target lookup (more + 1) backlog mQuorum =
      rebuildLoop target lookup more rest mQuorum') :
    Finishes target lookup first backlog mQuorum := by
  obtain ⟨rounds, rebuilt, ends, result⟩ := later
  refine ⟨rounds + 1, rebuilt, ?_, result⟩
  intro more enough
  obtain ⟨fewer, rfl⟩ : ∃ fewer, more = fewer + 1 := ⟨more - 1, by omega⟩
  rw [step]
  exact ends fewer (Nat.le_of_succ_le_succ enough)

theorem open_insert {node : NodeID} {qSet : Option Ptr} (opened : Open (mQuorum.insert n qSet) node)
    (was : Open mQuorum n) : Open mQuorum node := by
  by_cases same : node = n
  · exact same ▸ was
  · unfold Open recorded at opened
    rwa [AList.lookup_insert_ne same] at opened

theorem not_open_insert (qSet : Ptr) : ¬ Open (mQuorum.insert n (some qSet)) n := by
  unfold Open recorded
  rw [AList.lookup_insert]
  exact Option.some_ne_none qSet

theorem rebuildLoop_open {rounds : Nat} (opened : Open mQuorum n) :
    rebuildLoop target lookup (rounds + 1) (n :: backlog) mQuorum =
      match lookup n with
      | some qSet =>
          rebuildLoop target lookup rounds
            ((allNodes (target qSet)).foldl (fun set id => OrderedSet.insert id set) backlog)
            (mQuorum.insert n (some qSet))
      | none => rebuildLoop target lookup rounds backlog (mQuorum.insert n none) := by
  rw [rebuildLoop]
  split
  · rename_i qSet known
    unfold Open recorded at opened
    rw [known] at opened
    cases opened
  · rfl

open Classical in
theorem Searching.finishes (finite : Set.Finite {node | Reaches target lookup first node})
    (searching : Searching target lookup first backlog mQuorum) :
    Finishes target lookup first backlog mQuorum := by
  induction closing : (finite.toFinset.filter (Open mQuorum)).card using Nat.strong_induction_on
    generalizing backlog mQuorum with
  | _ count fewer =>
  induction backlog generalizing mQuorum count with
  | nil =>
      refine ⟨1, mQuorum, ?_, searching.done⟩
      intro more enough
      obtain ⟨later, rfl⟩ := Nat.exists_eq_add_of_le' enough
      rfl
  | cons n backlog shorter =>
      by_cases known : ∃ qSet, mQuorum.lookup n = some (some qSet)
      · obtain ⟨qSet, known⟩ := known
        have recorded : n ∈ mQuorum := AList.lookup_isSome.mp (by rw [known]; rfl)
        refine (shorter count fewer (searching.skip recorded) closing).of_next ?_
        intro more
        rw [rebuildLoop, known]
      have opened : Open mQuorum n := by
        refine Option.eq_none_iff_forall_ne_some.mpr fun qSet here => ?_
        exact known ⟨qSet, lookup_of_recorded here⟩
      have kept : finite.toFinset.filter (Open (mQuorum.insert n (lookup n))) ⊆
          finite.toFinset.filter (Open mQuorum) := by
        intro node inside
        rw [Finset.mem_filter] at inside ⊢
        exact ⟨inside.1, open_insert inside.2 opened⟩
      cases found : lookup n with
      | some qSet =>
          have visited := searching.visit fun node => by
            rw [mem_backlog backlog (allNodes (target qSet)), Names, found]
            simp only [Option.some.injEq, exists_eq_left']
          rw [found] at visited kept
          have closed : finite.toFinset.filter (Open (mQuorum.insert n (some qSet))) ⊂
              finite.toFinset.filter (Open mQuorum) := by
            refine (Finset.ssubset_iff_of_subset kept).mpr ⟨n, ?_, ?_⟩
            · rw [Finset.mem_filter, Set.Finite.mem_toFinset]
              exact ⟨searching.reached n (Or.inl (List.mem_cons_self ..)), opened⟩
            · rw [Finset.mem_filter]
              exact fun inside => not_open_insert qSet inside.2
          refine (fewer _ (closing ▸ Finset.card_lt_card closed) visited rfl).of_next ?_
          intro more
          rw [rebuildLoop_open opened, found]
      | none =>
          have visited := @Searching.visit _ _ _ _ _ _ _ _ _ searching backlog fun node => by
            rw [Names, found]
            simp only [reduceCtorEq, false_and, exists_false, or_false]
          rw [found] at visited kept
          refine (shorter _ ?_ visited rfl).of_next ?_
          · intro less small
            exact fewer less (lt_of_lt_of_le small (closing ▸ Finset.card_le_card kept))
          · intro more
            rw [rebuildLoop_open opened, found]

end Rebuilding

/-! ### Expanding -/

section Expanding

variable {target : Ptr → SCPQuorumSet NodeID} {first : NodeID}
  {mQuorum mQuorum' : TrackedQuorum NodeID Ptr}

structure Connected (target : Ptr → SCPQuorumSet NodeID) (first : NodeID)
    (mQuorum : TrackedQuorum NodeID Ptr) : Prop where
  closed : ∀ node other, Names target (recorded mQuorum) node other → other ∈ mQuorum
  reached : ∀ node, node ∈ mQuorum → Reaches target (recorded mQuorum) first node

def Keeps (mQuorum mQuorum' : TrackedQuorum NodeID Ptr) : Prop :=
  ∀ node qSet, recorded mQuorum node = some qSet → recorded mQuorum' node = some qSet

theorem Keeps.reaches (keeps : Keeps mQuorum mQuorum') {node : NodeID}
    (reaches : Reaches target (recorded mQuorum) first node) :
    Reaches target (recorded mQuorum') first node := by
  refine Relation.ReflTransGen.mono ?_ _ _ reaches
  intro node other ⟨qSet, known, inside⟩
  exact ⟨qSet, keeps node qSet known, inside⟩

theorem Rebuilt.connected {lookup : NodeID → Option Ptr}
    (rebuilt : Rebuilt target lookup first mQuorum) : Connected target first mQuorum := by
  have agree : ∀ node, node ∈ mQuorum → recorded mQuorum node = lookup node := by
    intro node member
    rw [recorded, rebuilt.values node member, Option.join_some]
  constructor
  · intro node other ⟨qSet, known, inside⟩
    have member : node ∈ mQuorum :=
      AList.lookup_isSome.mp (by rw [lookup_of_recorded known]; rfl)
    rw [agree node member] at known
    exact (rebuilt.keys other).mpr (((rebuilt.keys node).mp member).tail ⟨qSet, known, inside⟩)
  · intro node member
    have reaches := (rebuilt.keys node).mp member
    clear member
    induction reaches with
    | refl => exact Relation.ReflTransGen.refl
    | tail before names ih =>
        obtain ⟨qSet, known, inside⟩ := names
        rw [← agree _ ((rebuilt.keys _).mpr before)] at known
        exact ih.tail ⟨qSet, known, inside⟩

theorem recorded_insertNew (mQuorum : TrackedQuorum NodeID Ptr) (id node : NodeID) :
    recorded (insertNew mQuorum id) node = recorded mQuorum node := by
  unfold insertNew
  split
  · rfl
  · rename_i absent
    unfold recorded
    by_cases same : node = id
    · subst same
      rw [AList.lookup_insert, Option.not_isSome_iff_eq_none.mp absent]
      rfl
    · rw [AList.lookup_insert_ne same]

theorem mem_insertNew (mQuorum : TrackedQuorum NodeID Ptr) (id node : NodeID) :
    node ∈ insertNew mQuorum id ↔ node ∈ mQuorum ∨ node = id := by
  unfold insertNew
  split
  · rename_i present
    have member := AList.lookup_isSome.mp present
    constructor
    · exact Or.inl
    · rintro (old | rfl)
      · exact old
      · exact member
  · rw [AList.mem_insert, or_comm]

theorem recorded_foldl (nodes : List NodeID) (mQuorum : TrackedQuorum NodeID Ptr) (node : NodeID) :
    recorded (nodes.foldl insertNew mQuorum) node = recorded mQuorum node := by
  induction nodes generalizing mQuorum with
  | nil => rfl
  | cons head tail ih => rw [List.foldl_cons, ih, recorded_insertNew]

theorem mem_foldl (nodes : List NodeID) (mQuorum : TrackedQuorum NodeID Ptr) (node : NodeID) :
    node ∈ nodes.foldl insertNew mQuorum ↔ node ∈ mQuorum ∨ node ∈ nodes := by
  induction nodes generalizing mQuorum with
  | nil => simp only [List.foldl_nil, List.not_mem_nil, or_false]
  | cons head tail ih =>
      rw [List.foldl_cons, ih, mem_insertNew, List.mem_cons, or_assoc]

theorem Connected.learn (connected : Connected target first mQuorum) {id : NodeID} {qSet : Ptr}
    (unknown : mQuorum.lookup id = some none) :
    Connected target first
        ((allNodes (target qSet)).foldl insertNew (mQuorum.insert id (some qSet))) ∧
      Keeps mQuorum ((allNodes (target qSet)).foldl insertNew (mQuorum.insert id (some qSet))) := by
  have here : recorded mQuorum id = none := by
    rw [recorded, unknown]
    rfl
  have member : id ∈ mQuorum := AList.lookup_isSome.mp (by rw [unknown]; rfl)
  have learned : ∀ node, recorded ((allNodes (target qSet)).foldl insertNew
      (mQuorum.insert id (some qSet))) node =
        if node = id then some qSet else recorded mQuorum node := by
    intro node
    rw [recorded_foldl]
    unfold recorded
    by_cases same : node = id
    · subst same
      rw [AList.lookup_insert, if_pos rfl]
      rfl
    · rw [AList.lookup_insert_ne same, if_neg same]
  have keeps : Keeps mQuorum ((allNodes (target qSet)).foldl insertNew
      (mQuorum.insert id (some qSet))) := by
    intro node old known
    have other : node ≠ id := by
      rintro rfl
      rw [here] at known
      cases known
    rw [learned, if_neg other, known]
  refine ⟨⟨?_, ?_⟩, keeps⟩
  · intro node other ⟨found, known, inside⟩
    rw [learned] at known
    rw [mem_foldl, AList.mem_insert]
    by_cases same : node = id
    · rw [if_pos same] at known
      obtain rfl := Option.some.inj known
      exact Or.inr inside
    · rw [if_neg same] at known
      exact Or.inl (Or.inr (connected.closed node other ⟨found, known, inside⟩))
  · intro node inside
    have reachesId := keeps.reaches (connected.reached id member)
    rw [mem_foldl, AList.mem_insert] at inside
    rcases inside with (rfl | old) | named
    · exact reachesId
    · exact keeps.reaches (connected.reached node old)
    · exact reachesId.tail ⟨qSet, by rw [learned, if_pos rfl], named⟩

section Calls

variable [DecidableEq Ptr] {tracker after : QuorumTracker NodeID Ptr}

theorem expand_cases {id : NodeID} {qSet : Option Ptr} {res : Bool}
    (ran : tracker.expand target id qSet = some (res, after)) :
    after = tracker ∨
      ∃ found, tracker.mQuorum.lookup id = some none ∧ qSet = some found ∧
        after = { tracker with
          mQuorum := (allNodes (target found)).foldl insertNew
            (tracker.mQuorum.insert id (some found)) } := by
  unfold expand at ran
  split at ran
  · cases ran
    exact Or.inl rfl
  · rename_i unknown
    obtain _ | found := qSet
    · cases ran
    · cases ran
      exact Or.inr ⟨found, unknown, rfl, rfl⟩
  · cases ran
    exact Or.inl rfl

theorem expand_connected {id : NodeID} {qSet : Option Ptr} {res : Bool}
    (ran : tracker.expand target id qSet = some (res, after))
    (connected : Connected target first tracker.mQuorum) :
    Connected target first after.mQuorum ∧ Keeps tracker.mQuorum after.mQuorum := by
  rcases expand_cases ran with rfl | ⟨found, unknown, rfl, rfl⟩
  · exact ⟨connected, fun _ _ known => known⟩
  · exact connected.learn unknown

theorem expandAll_connected {calls : List (NodeID × Option Ptr)}
    (ran : tracker.expandAll target calls = some after)
    (connected : Connected target first tracker.mQuorum) :
    Connected target first after.mQuorum ∧ Keeps tracker.mQuorum after.mQuorum := by
  induction calls generalizing tracker with
  | nil =>
      cases ran
      exact ⟨connected, fun _ _ known => known⟩
  | cons call later ih =>
      obtain ⟨⟨res, next⟩, first', rest⟩ := Option.bind_eq_some_iff.mp ran
      obtain ⟨here, kept⟩ := expand_connected first' connected
      obtain ⟨there, keptLater⟩ := ih rest here
      exact ⟨there, fun node qSet known => keptLater node qSet (kept node qSet known)⟩

theorem expandAll_isSome {calls : List (NodeID × Option Ptr)}
    (given : ∀ call ∈ calls, call.2.isSome) : (tracker.expandAll target calls).isSome := by
  induction calls generalizing tracker with
  | nil => rfl
  | cons call later ih =>
      obtain ⟨id, qSet⟩ := call
      obtain ⟨found, rfl⟩ := Option.isSome_iff_exists.mp (given (id, qSet) (List.mem_cons_self ..))
      have rest := fun next => @ih next fun other member =>
        given other (List.mem_cons_of_mem _ member)
      unfold expandAll expand
      split
      · exact rest _
      · exact rest _
      · exact rest _

/-- A rebuild ends with the nodes the local node reaches, and whatever is expanded after it keeps
the map connected and what it has recorded. -/
theorem rebuild_then_expand (target : Ptr → SCPQuorumSet NodeID)
    (tracker : QuorumTracker NodeID Ptr) (lookup : NodeID → Option Ptr)
    (finite : Set.Finite {node | Reaches target lookup tracker.localNodeID node}) :
    ∃ rounds rebuilt, (∀ more, rounds ≤ more → rebuild target more tracker lookup = some rebuilt) ∧
      (∀ node, node ∈ rebuilt.mQuorum ↔ Reaches target lookup tracker.localNodeID node) ∧
      (∀ node, node ∈ rebuilt.mQuorum → rebuilt.mQuorum.lookup node = some (lookup node)) ∧
      (∀ calls, (∀ call ∈ calls, call.2.isSome) → (expandAll target rebuilt calls).isSome) ∧
      ∀ calls before, expandAll target rebuilt calls = some before →
        (∀ node other, Names target (recorded before.mQuorum) node other →
          other ∈ before.mQuorum) ∧
        (∀ node, node ∈ before.mQuorum →
          Reaches target (recorded before.mQuorum) tracker.localNodeID node) ∧
        ∀ further after, expandAll target before further = some after →
          ∀ node qSet, before.mQuorum.lookup node = some (some qSet) →
            after.mQuorum.lookup node = some (some qSet) := by
  obtain ⟨rounds, mQuorum, ends, rebuilt⟩ := Searching.initial.finishes finite
  refine ⟨rounds, { tracker with mQuorum }, ?_, rebuilt.keys, rebuilt.values, ?_, ?_⟩
  · intro more enough
    unfold rebuild
    rw [ends more enough]
    rfl
  · intro calls given
    exact expandAll_isSome given
  · intro calls before ran
    obtain ⟨connected, _⟩ := expandAll_connected ran rebuilt.connected
    refine ⟨connected.closed, connected.reached, ?_⟩
    intro further after ran' node qSet known
    obtain ⟨_, kept⟩ := expandAll_connected ran' connected
    apply lookup_of_recorded
    apply kept
    rw [recorded, known, Option.join_some]

/-- Two nodes that trust each other. -/
theorem rebuild_then_expand_pair :
    ∃ rounds rebuilt,
      rebuild (fun node : Bool => .mk 1 [!node] []) rounds ⟨false, ∅⟩ (fun node => some node) =
        some rebuilt ∧
      (∀ node, node ∈ rebuilt.mQuorum → rebuilt.mQuorum.lookup node = some (some node)) := by
  obtain ⟨rounds, rebuilt, ends, _keys, values, _⟩ :=
    rebuild_then_expand (fun node : Bool => SCPQuorumSet.mk 1 [!node] []) ⟨false, ∅⟩
      (fun node => some node) (Set.toFinite _)
  exact ⟨rounds, rebuilt, ends rounds (Nat.le_refl rounds), values⟩

end Calls

end Expanding

end QuorumTracker

end ViiCore.Herder
