import ViiCore.Ledger.MapLevels
import ViiCore.Ledger.RootCache
import ViiCore.Ledger.RootCommits

/-!
A nesting of transactions over a root behaves as a stack of finite maps, as long as no two keys
share a row of the database.
-/

namespace ViiCore.LedgerTxn

open ViiCore.FiniteMap
open ViiCore.Ledger (LedgerHeader)

variable {κ ν ρ σ : Type} [DecidableEq κ] [DecidableEq ρ] [DecidableEq σ]

section Stacks

variable (schema : Schema κ ρ σ) (rand : Nat → Draws)

def LevelsRefine (rows : Map ρ (LedgerEntry κ ν)) : List (Impl κ ν) → List (MapLevel κ ν) → Prop
  | [], [] => True
  | txn :: outer, level :: levels =>
      LevelRefines (viewOf schema rows outer) txn level ∧ LevelsRefine rows outer levels
  | _, _ => False

/-- The database of a root holds a finite map, and its cache nothing else. -/
structure Stores (root : LedgerTxnRoot κ ν ρ) (entries : Map κ (LedgerEntry κ ν)) : Prop where
  rowsKeyed : RowsKeyed schema root.mDatabase
  coherent : Coherent schema root
  rows : ∀ key, loadRow schema root.mDatabase key = entries.lookup key

structure StackRefines (stack : Stack κ ν ρ) (maps : MapStack κ ν) : Prop where
  stores : Stores schema stack.root maps.entries
  header : stack.root.mHeader = maps.header
  levels : LevelsRefine schema stack.root.mDatabase stack.levels maps.levels

variable {schema} {rand} {root : LedgerTxnRoot κ ν ρ} {stack after : Stack κ ν ρ}
  {maps : MapStack κ ν}

theorem Stores.asked {entries : Map κ (LedgerEntry κ ν)} {later : LedgerTxnRoot κ ν ρ}
    (stores : Stores schema root entries) (asked : Asked schema root later) :
    Stores schema later entries where
  rowsKeyed := by
    rw [asked.database]
    exact stores.rowsKeyed
  coherent := asked.coherent
  rows := by
    rw [asked.database]
    exact stores.rows

theorem LevelsRefine.drop {rows : Map ρ (LedgerEntry κ ν)} {levels : List (Impl κ ν)}
    {mapLevels : List (MapLevel κ ν)} (refine_ : LevelsRefine schema rows levels mapLevels)
    (depth : Nat) : LevelsRefine schema rows (levels.drop depth) (mapLevels.drop depth) := by
  induction depth generalizing levels mapLevels with
  | zero => exact refine_
  | succ depth ih =>
      match levels, mapLevels, refine_ with
      | [], [], _ => exact trivial
      | _ :: _, _ :: _, both => exact ih both.2

/-- A call to the innermost transaction that asks the root of nothing it does not have. -/
theorem innermost_refines (plain : View κ ν → Impl κ ν → Except Fault (Impl κ ν))
    {f : List (Impl κ ν) → Impl κ ν → Asking κ ν ρ (Impl κ ν)} {g : MapLevel κ ν → MapLevel κ ν}
    (refines : StackRefines schema stack maps) (ran : stack.innermost f = .ok after)
    (agrees : ∀ outer txn, Agrees schema (f outer txn) stack.root
      (plain (viewOf schema stack.root.mDatabase outer) txn))
    (step : ∀ mParent txn later level, LevelRefines mParent txn level →
      plain mParent txn = .ok later → LevelRefines mParent later (g level)) :
    StackRefines schema after (maps.innermost g) := by
  obtain ⟨stores, header, levels⟩ := refines
  obtain ⟨root, txns⟩ := stack
  obtain ⟨entries, mapHeader, mapLevels⟩ := maps
  match txns, mapLevels, levels with
  | [], [], _ => cases ran
  | txn :: outer, level :: mapOuter, both =>
      obtain ⟨⟨later, asked⟩, called, same⟩ := except_bind_ok.mp ran
      cases same
      obtain ⟨computed, only⟩ := agrees outer txn later asked called
      refine ⟨stores.asked only, only.header.trans header, ?_⟩
      change LevelsRefine schema asked.mDatabase (later :: outer) (g level :: mapOuter)
      rw [only.database]
      exact ⟨step _ txn later level both.1 computed, both.2⟩

theorem LevelsRefine.view {rows : Map ρ (LedgerEntry κ ν)} {levels : List (Impl κ ν)} {depth : Nat}
    (rowsSame : ∀ key, loadRow schema rows key = maps.entries.lookup key)
    (refine_ : LevelsRefine schema rows levels (maps.levels.drop depth)) (key : κ) :
    viewOf schema rows levels key = (maps.entriesAt depth).lookup key := by
  unfold MapStack.entriesAt
  match levels, maps.levels.drop depth, refine_ with
  | [], [], _ => exact rowsSame key
  | txn :: outer, level :: mapOuter, both => exact both.1.newest key

theorem handled_refines (plain : View κ ν → Impl κ ν → Except Fault (Impl κ ν))
    {f : List (Impl κ ν) → Impl κ ν → Asking κ ν ρ (Impl κ ν)}
    (refines : StackRefines schema stack maps) (ran : stack.innermost f = .ok after)
    (agrees : ∀ outer txn, Agrees schema (f outer txn) stack.root
      (plain (viewOf schema stack.root.mDatabase outer) txn))
    (handles : ∀ mParent txn later, plain mParent txn = .ok later →
      ∃ active activeHeader, later = { txn with mActive := active, mActiveHeader := activeHeader }) :
    StackRefines schema after maps := by
  have same : maps.innermost (fun level => level) = maps := by
    unfold MapStack.innermost
    split
    · rfl
    · rename_i levels
      rw [← levels]
  rw [← same]
  apply innermost_refines plain refines ran agrees
  intro mParent txn later level levelRefines computed
  obtain ⟨active, activeHeader, rfl⟩ := handles mParent txn later computed
  exact levelRefines.handles active activeHeader

variable (distinct : Function.Injective schema.primaryKey)

include distinct

theorem openChild_refines {stamping : Bool} (refines : StackRefines schema stack maps)
    (ran : stack.openChild stamping = .ok after) :
    StackRefines schema after (maps.perform (.openChild stamping)) := by
  obtain ⟨stores, header, levels⟩ := refines
  obtain ⟨root, txns⟩ := stack
  obtain ⟨entries, mapHeader, mapLevels⟩ := maps
  match txns, mapLevels, levels with
  | [], [], _ =>
      cases ran
      refine ⟨stores, header, ?_, trivial⟩
      change LevelRefines _ _ { entries, header := mapHeader, touched := [], stamping }
      have sameHeader : root.mHeader = mapHeader := header
      rw [← sameHeader]
      apply opened_refines root.mHeader stamping stores.rows
      intro key entry found
      rw [← stores.rows] at found
      exact loadRow_keyed distinct stores.rowsKeyed key entry found
  | txn :: outer, level :: mapOuter, both =>
      obtain ⟨-, -, same⟩ := except_bind_ok.mp ran
      cases same
      have parent := both.1.handles ∅ false
      refine ⟨stores, header, ?_, parent, both.2⟩
      change LevelRefines _ _ { entries := level.entries, header := level.header, touched := [], stamping }
      rw [← both.1.header]
      exact opened_refines txn.mHeader stamping parent.newest parent.keyed

theorem commit_stack_refines (refines : StackRefines schema stack maps)
    (ran : stack.commit schema rand = .ok after) : StackRefines schema after maps.commit := by
  obtain ⟨stores, header, levels⟩ := refines
  obtain ⟨root, txns⟩ := stack
  obtain ⟨entries, mapHeader, mapLevels⟩ := maps
  match txns, mapLevels, levels with
  | [], [], _ => cases ran
  | [child], [inner], both =>
      obtain ⟨committed, wrote, same⟩ := except_bind_ok.mp ran
      cases same
      have recordsKeyed : ∀ key entry, child.sealed.mEntry.lookup key = some (some entry) →
          entry.key = key := by
        intro key entry found
        apply both.1.stamped_keyed key entry
        rw [← both.1.stamped_lookup key]
        exact getNewestVersion_recorded found
      obtain ⟨rowsKeyed, rows⟩ :=
        commitChild_loadRow distinct stores.rowsKeyed recordsKeyed wrote
      obtain ⟨-, -, -, -, newHeader, cache⟩ := commitChild_writes wrote
      refine ⟨⟨rowsKeyed, ?_, fun key => ?_⟩, ?_, trivial⟩
      · unfold Coherent
        rw [cache]
        exact RandomEvictionCache.clear_holds
      · rw [rows]
        exact both.1.stamped_lookup key
      · rw [newHeader]
        unfold Impl.sealed
        split <;> exact both.1.header
  | child :: parent :: outer, inner :: level :: mapOuter, both =>
      obtain ⟨⟨later, asked⟩, committed, same⟩ := except_bind_ok.mp ran
      cases same
      obtain ⟨computed, only⟩ := commitChild_agrees stores.coherent child.sealed later asked committed
      cases computed
      refine ⟨stores.asked only, only.header.trans header, ?_⟩
      change LevelsRefine schema asked.mDatabase (_ :: outer) (_ :: mapOuter)
      rw [only.database]
      exact ⟨commit_refines both.2.1 both.1, both.2.2⟩

theorem perform_refines {request : Request κ ν} (refines : StackRefines schema stack maps)
    (ran : stack.perform schema rand request = .ok after) :
    StackRefines schema after (maps.perform request) := by
  have coherent := refines.stores.coherent
  cases request with
  | openChild stamping => exact openChild_refines distinct refines ran
  | create entry =>
      apply innermost_refines (fun mParent txn => txn.create mParent entry) refines ran
        fun outer txn => create_agrees coherent entry
      intro mParent txn later level levelRefines computed
      obtain ⟨-, rfl⟩ := create_ok computed
      exact (levelRefines.put entry).handles _ _
  | createOrUpdateWithoutLoading entry =>
      apply innermost_refines (fun _ txn => txn.createOrUpdateWithoutLoading entry) refines ran
        fun outer txn => Agrees.of_except coherent _
      intro mParent txn later level levelRefines computed
      rw [createOrUpdateWithoutLoading_ok computed]
      exact levelRefines.put entry
  | load key =>
      apply innermost_refines (fun mParent txn => txn.load mParent key) refines ran
        fun outer txn => load_agrees coherent key
      intro mParent txn later level levelRefines computed
      exact load_refines levelRefines computed
  | loadWithoutRecord key =>
      apply handled_refines (fun mParent txn => txn.loadWithoutRecord mParent key) refines ran
        fun outer txn => loadWithoutRecord_agrees coherent key
      intro mParent txn later computed
      obtain ⟨active, rfl⟩ := loadWithoutRecord_ok computed
      exact ⟨active, txn.mActiveHeader, rfl⟩
  | modify entry =>
      apply innermost_refines (fun _ txn => txn.modify entry) refines ran
        fun outer txn => Agrees.of_except coherent _
      intro mParent txn later level levelRefines computed
      rw [modify_ok computed]
      exact levelRefines.put entry
  | deactivate key =>
      apply handled_refines (fun _ txn => txn.deactivate key) refines ran
        fun outer txn => Agrees.of_except coherent _
      intro mParent txn later computed
      obtain ⟨active, rfl⟩ := deactivate_ok computed
      exact ⟨active, txn.mActiveHeader, rfl⟩
  | erase key =>
      apply innermost_refines (fun mParent txn => txn.erase mParent key) refines ran
        fun outer txn => erase_agrees coherent key
      intro mParent txn later level levelRefines computed
      exact erase_refines levelRefines computed
  | eraseWithoutLoading key =>
      apply innermost_refines (fun _ txn => txn.eraseWithoutLoading key) refines ran
        fun outer txn => Agrees.of_except coherent _
      intro mParent txn later level levelRefines computed
      exact eraseWithoutLoading_refines levelRefines computed
  | loadHeader =>
      apply handled_refines (fun _ txn => txn.loadHeader) refines ran
        fun outer txn => Agrees.of_except coherent _
      intro mParent txn later computed
      obtain ⟨active, rfl⟩ := loadHeader_ok computed
      exact ⟨txn.mActive, active, rfl⟩
  | modifyHeader header =>
      apply innermost_refines (fun _ txn => txn.modifyHeader header) refines ran
        fun outer txn => Agrees.of_except coherent _
      intro mParent txn later level levelRefines computed
      rw [modifyHeader_ok computed]
      exact ⟨levelRefines.newest, levelRefines.keyed, rfl, levelRefines.stamping,
        levelRefines.unsealed, levelRefines.touched⟩
  | deactivateHeader =>
      apply handled_refines (fun _ txn => txn.deactivateHeader) refines ran
        fun outer txn => Agrees.of_except coherent _
      intro mParent txn later computed
      obtain ⟨active, rfl⟩ := deactivateHeader_ok computed
      exact ⟨txn.mActive, active, rfl⟩
  | commit => exact commit_stack_refines distinct refines ran
  | rollback descendants =>
      cases ran
      exact ⟨refines.stores, refines.header, refines.levels.drop (descendants + 1)⟩

theorem run_refines {requests : List (Request κ ν)} (refines : StackRefines schema stack maps)
    (ran : stack.run schema rand requests = .ok after) :
    StackRefines schema after (maps.run requests) := by
  induction requests generalizing stack maps with
  | nil =>
      cases ran
      exact refines
  | cons request requests ih =>
      unfold Stack.run at ran
      rw [List.foldlM_cons] at ran
      obtain ⟨middle, performed, ran⟩ := except_bind_ok.mp ran
      exact ih (perform_refines distinct refines performed) ran

omit distinct

theorem LevelsRefine.length {rows : Map ρ (LedgerEntry κ ν)} {levels : List (Impl κ ν)}
    {mapLevels : List (MapLevel κ ν)} (refine_ : LevelsRefine schema rows levels mapLevels) :
    levels.length = mapLevels.length := by
  induction levels generalizing mapLevels with
  | nil =>
      match mapLevels, refine_ with
      | [], _ => rfl
  | cons txn outer ih =>
      match mapLevels, refine_ with
      | _ :: _, both => exact congrArg Nat.succ (ih both.2)

variable (schema rand) in
/-- What a stack shows of itself is what a stack of maps says: at every depth the newest versions
and the header, and what a commit into the root would write. -/
structure Behaves (stack : Stack κ ν ρ) (maps : MapStack κ ν) : Prop where
  depth : stack.levels.length = maps.levels.length
  newest : ∀ depth key, ∃ root, ask schema rand (stack.levels.drop depth) key stack.root =
    .ok ((maps.entriesAt depth).lookup key, root)
  header : ∀ depth, Stack.header { stack with levels := stack.levels.drop depth } =
    maps.headerAt depth
  /-- Every key that changes is written once, with its last value. -/
  writes : ∀ child committed, stack.levels = [child] → stack.commit schema rand = .ok committed →
    ∃ writes, committed.root.written = stack.root.written ++ writes ∧
      (writes.map Sigma.fst).Nodup ∧
      (∀ write ∈ writes, write.2 = maps.commit.entries.lookup write.1) ∧
      ∀ key, maps.commit.entries.lookup key ≠ maps.entries.lookup key → key ∈ writes.map Sigma.fst

theorem StackRefines.writes (refines : StackRefines schema stack maps) {child : Impl κ ν}
    {committed : Stack κ ν ρ} (single : stack.levels = [child])
    (ran : stack.commit schema rand = .ok committed) :
    ∃ writes, committed.root.written = stack.root.written ++ writes ∧
      (writes.map Sigma.fst).Nodup ∧
      (∀ write ∈ writes, write.2 = maps.commit.entries.lookup write.1) ∧
      ∀ key, maps.commit.entries.lookup key ≠ maps.entries.lookup key →
        key ∈ writes.map Sigma.fst := by
  obtain ⟨stores, header, levels⟩ := refines
  obtain ⟨root, txns⟩ := stack
  obtain ⟨entries, mapHeader, mapLevels⟩ := maps
  cases single
  match mapLevels, levels with
  | [inner], both =>
      obtain ⟨later, wrote, same⟩ := except_bind_ok.mp ran
      cases same
      obtain ⟨writes, perm, logged, -⟩ := commitChild_writes wrote
      have stamped := both.1.stamped_lookup
      refine ⟨writes, logged, ?_, ?_, ?_⟩
      · exact (List.perm_nodupKeys perm).mpr child.sealed.mEntry.nodupKeys
      · intro write member
        have recorded : child.sealed.mEntry.lookup write.1 = some write.2 :=
          AList.mem_lookup_iff.mpr (perm.subset member)
        exact (getNewestVersion_recorded recorded).symm.trans (stamped write.1)
      · intro key changed
        cases recorded : child.sealed.mEntry.lookup key with
        | none =>
            refine absurd ?_ changed
            change inner.stamped.lookup key = entries.lookup key
            rw [← stamped key, getNewestVersion_unrecorded recorded]
            exact stores.rows key
        | some record =>
            have member := perm.symm.subset (AList.mem_lookup_iff.mp recorded)
            exact List.mem_map.mpr ⟨_, member, rfl⟩

theorem StackRefines.behaves (refines : StackRefines schema stack maps) :
    Behaves schema rand stack maps where
  depth := refines.levels.length
  newest depth key := by
    obtain ⟨root, answered, -⟩ := ask_ok rand refines.stores.coherent (stack.levels.drop depth) key
    refine ⟨root, ?_⟩
    rw [answered, LevelsRefine.view refines.stores.rows (refines.levels.drop depth) key]
  header depth := by
    have levels := refines.levels.drop depth
    unfold Stack.header MapStack.headerAt
    match stack.levels.drop depth, maps.levels.drop depth, levels with
    | [], [], _ => exact refines.header
    | _ :: _, _ :: _, both => exact both.1.header
  writes child committed single ran := refines.writes single ran

/-- Where no two keys share a row, a nesting of transactions is a stack of finite maps. -/
theorem run_behaves (schema : Schema κ ρ σ) (rand : Nat → Draws)
    (distinct : Function.Injective schema.primaryKey) (root : LedgerTxnRoot κ ν ρ)
    (entries : Map κ (LedgerEntry κ ν)) (stores : Stores schema root entries)
    (requests : List (Request κ ν)) (after : Stack κ ν ρ)
    (ran : Stack.run schema rand { root, levels := [] } requests = .ok after) :
    Behaves schema rand after
      (MapStack.run { entries, header := root.mHeader, levels := [] } requests) := by
  have start : StackRefines schema { root, levels := [] }
      { entries, header := root.mHeader, levels := [] } := ⟨stores, rfl, trivial⟩
  exact (run_refines distinct start ran).behaves

end Stacks

def bareHeader : LedgerHeader :=
  { ledgerVersion := 11, closeTime := 0, ledgerSeq := 5, totalCoins := 1000, feePool := 0,
    inflationSeq := 0, idPool := 0, baseFee := 1, baseReserve := 10, maxTxSetSize := 1 }

def bareRoot (κ ρ : Type) : LedgerTxnRoot κ Nat ρ where
  mDatabase := ∅
  mHeader := bareHeader
  mEntryCache := .empty 1
  written := []

/-- A child erases what its parent created and creates another entry, and both are committed. -/
theorem run_behaves_nested :
    ∃ after, Stack.run (⟨fun _ => .OFFER, id, id⟩ : Schema Nat Nat Nat) (fun _ => ⟨0, 0⟩)
        { root := bareRoot Nat Nat, levels := [] }
        [.openChild true, .create ⟨0, 1, 10⟩, .openChild false, .erase 1, .create ⟨0, 2, 20⟩, .commit,
          .commit] = .ok after ∧
      Behaves (⟨fun _ => .OFFER, id, id⟩ : Schema Nat Nat Nat) (fun _ => ⟨0, 0⟩) after
        (MapStack.run { entries := ∅, header := bareHeader, levels := [] }
          [.openChild true, .create ⟨0, 1, 10⟩, .openChild false, .erase 1, .create ⟨0, 2, 20⟩,
            .commit, .commit]) := by
  refine ⟨_, rfl, ?_⟩
  refine run_behaves (⟨fun _ => .OFFER, id, id⟩ : Schema Nat Nat Nat) (fun _ => ⟨0, 0⟩)
    Function.injective_id (bareRoot Nat Nat) ∅ ⟨?_, RandomEvictionCache.empty_holds 1, ?_⟩ _ _ rfl
  · intro primaryKey entry found
    cases found
  · intro key
    rfl

def offersById : Schema (Nat × Nat) Nat (Nat × Nat) where
  type _ := .OFFER
  primaryKey := Prod.snd
  columns := id

/-- The offer of the second seller was written first, and then that of the first seller in its row. -/
def oneOffer : Stack (Nat × Nat) Nat Nat where
  root :=
    { mDatabase := (∅ : Map Nat (LedgerEntry (Nat × Nat) Nat)).insert 7 ⟨0, (1, 7), 10⟩
      mHeader := bareHeader
      mEntryCache := { mMaxSize := 1, mGeneration := 2, mValueMap := ∅, mValuePtrs := [] }
      written := [⟨(2, 7), some ⟨0, (2, 7), 20⟩⟩, ⟨(1, 7), some ⟨0, (1, 7), 10⟩⟩] }
  levels := []

/-- Two sellers with an offer of the same id: the database keeps one of the two. -/
theorem run_loses_offer :
    Stores offersById (bareRoot (Nat × Nat) Nat) ∅ ∧
    Stack.run offersById (fun _ => ⟨0, 0⟩) { root := bareRoot (Nat × Nat) Nat, levels := [] }
        [.openChild false, .create ⟨0, (1, 7), 10⟩, .create ⟨0, (2, 7), 20⟩, .commit] =
      .ok oneOffer ∧
    ¬ Behaves offersById (fun _ => ⟨0, 0⟩) oneOffer
      (MapStack.run { entries := ∅, header := bareHeader, levels := [] }
        [.openChild false, .create ⟨0, (1, 7), 10⟩, .create ⟨0, (2, 7), 20⟩, .commit]) := by
  refine ⟨⟨?_, RandomEvictionCache.empty_holds 1, fun _ => rfl⟩, rfl, fun behaves => ?_⟩
  · intro primaryKey entry found
    cases found
  · obtain ⟨root, found⟩ := behaves.newest 0 (2, 7)
    have answer : (ask offersById (fun _ => ⟨0, 0⟩) (oneOffer.levels.drop 0) (2, 7)
      oneOffer.root).map Prod.fst = .ok none := rfl
    rw [found] at answer
    have lost := Except.ok.inj answer
    dsimp only at lost
    exact absurd lost (by decide)

end ViiCore.LedgerTxn
