import ViiCore.Ledger.LedgerTxn

/-!
What the transactions of a nesting record.

A record is kept under the key of its entry. While only operations of exact consistency are
used, a key is recorded as erased only where the parent has it.
-/

namespace ViiCore.LedgerTxn

open ViiCore.FiniteMap
open ViiCore.Ledger (LedgerHeader)

variable {κ ν : Type} [DecidableEq κ]

def Keyed (view : View κ ν) : Prop := ∀ key entry, view key = some entry → entry.key = key

structure Recorded (mParent : View κ ν) (txn : Impl κ ν) : Prop where
  keyed : ∀ key entry, txn.mEntry.lookup key = some (some entry) → entry.key = key
  exact_ : txn.mConsistency = .EXACT →
    ∀ key, txn.mEntry.lookup key = some none → (mParent key).isSome

def AllRecorded (root : Root κ ν) : List (Impl κ ν) → Prop
  | [] => True
  | txn :: outer => Recorded (newest root outer) txn ∧ AllRecorded root outer

theorem Root.keyed (root : Root κ ν) : Keyed root.getNewestVersion := by
  intro key entry found
  obtain ⟨row, _, rfl⟩ := Option.map_eq_some_iff.mp found
  rfl

theorem Recorded.newest_keyed {mParent : View κ ν} {txn : Impl κ ν} (recorded : Recorded mParent txn)
    (keyed : Keyed mParent) : Keyed (txn.getNewestVersion mParent) := by
  intro key entry found
  unfold Impl.getNewestVersion at found
  cases own : txn.mEntry.lookup key with
  | none =>
      rw [own] at found
      exact keyed key entry found
  | some record =>
      rw [own] at found
      cases found
      exact recorded.keyed key entry own

theorem AllRecorded.keyed {root : Root κ ν} {levels : List (Impl κ ν)}
    (recorded : AllRecorded root levels) : Keyed (newest root levels) := by
  induction levels with
  | nil => exact root.keyed
  | cons txn outer ih => exact recorded.1.newest_keyed (ih recorded.2)

/-! ### One call -/

/-- What a call to a transaction can do to its records and its consistency. -/
inductive Step (mParent : View κ ν) (txn after : Impl κ ν) : Prop
  | keep (records : after.mEntry = txn.mEntry) (cons : after.mConsistency = txn.mConsistency)
  | put (entry : LedgerEntry κ ν)
      (records : after.mEntry = txn.mEntry.insert entry.key (some entry))
      (cons : after.mConsistency = txn.mConsistency)
  | forget (key : κ) (records : after.mEntry = Impl.forget mParent txn.mEntry key)
      (cons : after.mConsistency = txn.mConsistency)
  | drop (cons : after.mConsistency = .EXTRA_DELETES) (key : κ)
      (records : after.mEntry = txn.mEntry.insert key none)
  | close (is : after = txn.sealed)

theorem forget_recorded {mParent : View κ ν} {txn : Impl κ ν} (recorded : Recorded mParent txn)
    (key : κ) :
    Recorded mParent { txn with mEntry := Impl.forget mParent txn.mEntry key } := by
  have other : ∀ found record, (Impl.forget mParent txn.mEntry key).lookup found = some record →
      (txn.mEntry.lookup found = some record ∨
        found = key ∧ record = none ∧ (mParent key).isSome) := by
    intro found record there
    unfold Impl.forget at there
    split at there
    · by_cases same : found = key
      · rw [same, AList.lookup_erase] at there
        cases there
      · rw [AList.lookup_erase_ne same] at there
        exact .inl there
    · rename_i present
      by_cases same : found = key
      · rw [same, AList.lookup_insert] at there
        cases there
        exact .inr ⟨same, rfl, Option.isSome_iff_ne_none.mpr (by simpa using present)⟩
      · rw [AList.lookup_insert_ne same] at there
        exact .inl there
  constructor
  · intro found entry there
    rcases other found _ there with old | ⟨_, impossible, _⟩
    · exact recorded.keyed found entry old
    · cases impossible
  · intro cons found there
    rcases other found _ there with old | ⟨rfl, _, present⟩
    · exact recorded.exact_ cons found old
    · exact present

theorem put_recorded {mParent : View κ ν} {txn : Impl κ ν} (recorded : Recorded mParent txn)
    (entry : LedgerEntry κ ν) :
    Recorded mParent { txn with mEntry := txn.mEntry.insert entry.key (some entry) } := by
  constructor
  · intro key other found
    by_cases same : key = entry.key
    · rw [same, AList.lookup_insert] at found
      cases found
      exact same.symm
    · rw [AList.lookup_insert_ne same] at found
      exact recorded.keyed key other found
  · intro cons key found
    by_cases same : key = entry.key
    · rw [same, AList.lookup_insert] at found
      cases found
    · rw [AList.lookup_insert_ne same] at found
      exact recorded.exact_ cons key found

omit [DecidableEq κ] in
theorem stamp_key (txn : Impl κ ν) (entry : LedgerEntry κ ν) : (txn.stamp entry).key = entry.key := by
  unfold Impl.stamp
  split <;> rfl

omit [DecidableEq κ] in
theorem sealed_mConsistency (txn : Impl κ ν) : txn.sealed.mConsistency = txn.mConsistency := by
  unfold Impl.sealed
  split <;> rfl

theorem sealed_recorded {mParent : View κ ν} {txn : Impl κ ν} (recorded : Recorded mParent txn) :
    Recorded mParent txn.sealed := by
  have unchanged : ∀ key, txn.sealed.mEntry.lookup key = txn.mEntry.lookup key ∨
      txn.sealed.mEntry.lookup key = (txn.mEntry.lookup key).map (Option.map txn.stamp) := by
    intro key
    unfold Impl.sealed
    split
    · exact .inl rfl
    · exact .inr (lookup_mapValues _ _ _)
  constructor
  · intro key entry found
    rcases unchanged key with same | stamped
    · rw [same] at found
      exact recorded.keyed key entry found
    · rw [stamped] at found
      obtain ⟨record, old, is⟩ := Option.map_eq_some_iff.mp found
      obtain ⟨before, rfl, rfl⟩ := Option.map_eq_some_iff.mp is
      rw [stamp_key]
      exact recorded.keyed key before old
  · intro cons key found
    rw [sealed_mConsistency] at cons
    rcases unchanged key with same | stamped
    · rw [same] at found
      exact recorded.exact_ cons key found
    · rw [stamped] at found
      obtain ⟨record, old, is⟩ := Option.map_eq_some_iff.mp found
      rw [Option.map_eq_none_iff] at is
      subst is
      exact recorded.exact_ cons key old

theorem Recorded.congr {mParent : View κ ν} {txn after : Impl κ ν} (recorded : Recorded mParent txn)
    (records : after.mEntry = txn.mEntry) (cons : after.mConsistency = txn.mConsistency) :
    Recorded mParent after where
  keyed := by
    rw [records]
    exact recorded.keyed
  exact_ := by
    rw [records, cons]
    exact recorded.exact_

theorem Step.recorded {mParent : View κ ν} {txn after : Impl κ ν} (step : Step mParent txn after)
    (recorded : Recorded mParent txn) : Recorded mParent after := by
  cases step with
  | keep records cons => exact recorded.congr records cons
  | put entry records cons => exact (put_recorded recorded entry).congr records cons
  | forget key records cons => exact (forget_recorded recorded key).congr records cons
  | drop cons key records =>
      constructor
      · intro found entry there
        rw [records] at there
        by_cases same : found = key
        · rw [same, AList.lookup_insert] at there
          cases there
        · rw [AList.lookup_insert_ne same] at there
          exact recorded.keyed found entry there
      · intro impossible
        rw [cons] at impossible
        cases impossible
  | close is =>
      rw [is]
      exact sealed_recorded recorded

section Calls

variable {mParent : View κ ν} {txn after : Impl κ ν}

omit [DecidableEq κ] in
theorem unsealed_of_ok {rest : Except Fault (Impl κ ν)}
    (ran : (do txn.throwIfSealed; rest) = .ok after) : txn.mIsSealed = false ∧ rest = .ok after := by
  unfold Impl.throwIfSealed at ran
  cases is : txn.mIsSealed with
  | true =>
      rw [is] at ran
      cases ran
  | false =>
      rw [is] at ran
      exact ⟨rfl, ran⟩

omit [DecidableEq κ] in
theorem allowed_of_ok {refused : Prop} {decidable : Decidable refused} {fault : Fault}
    {rest : Except Fault (Impl κ ν)}
    (ran : (if refused then throw fault else rest) = .ok after) : ¬ refused ∧ rest = .ok after := by
  by_cases is : refused
  · rw [if_pos is] at ran
    cases ran
  · rw [if_neg is] at ran
    exact ⟨is, ran⟩

theorem create_ok {entry : LedgerEntry κ ν} (ran : txn.create mParent entry = .ok after) :
    txn.getNewestVersion mParent entry.key = none ∧
      after = { txn with
        mActive := txn.activate entry.key .ledgerTxnEntry
        mEntry := txn.mEntry.insert entry.key (some entry) } := by
  obtain ⟨_, ran⟩ := unsealed_of_ok ran
  obtain ⟨absent, ran⟩ := allowed_of_ok ran
  cases ran
  exact ⟨by simpa using absent, rfl⟩

theorem createOrUpdateWithoutLoading_ok {entry : LedgerEntry κ ν}
    (ran : txn.createOrUpdateWithoutLoading entry = .ok after) :
    after = { txn with mEntry := txn.mEntry.insert entry.key (some entry) } := by
  obtain ⟨_, ran⟩ := unsealed_of_ok ran
  obtain ⟨_, ran⟩ := allowed_of_ok ran
  cases ran
  rfl

theorem erase_ok {key : κ} (ran : txn.erase mParent key = .ok after) :
    (txn.getNewestVersion mParent key).isSome ∧
      after = { txn with
        mEntry := Impl.forget mParent txn.mEntry key
        mActive := txn.mActive.erase key } := by
  obtain ⟨_, ran⟩ := unsealed_of_ok ran
  obtain ⟨present, ran⟩ := allowed_of_ok ran
  cases ran
  exact ⟨Option.isSome_iff_ne_none.mpr (by simpa using present), rfl⟩

theorem eraseWithoutLoading_ok {key : κ} (ran : txn.eraseWithoutLoading key = .ok after) :
    after = { txn with
      mEntry := txn.mEntry.insert key none
      mActive := txn.mActive.erase key
      mConsistency := .EXTRA_DELETES } := by
  obtain ⟨_, ran⟩ := unsealed_of_ok ran
  cases ran
  rfl

theorem load_ok {key : κ} (ran : txn.load mParent key = .ok after) :
    (txn.getNewestVersion mParent key = none ∧ after = txn) ∨
      ∃ entry, txn.getNewestVersion mParent key = some entry ∧
        after = { txn with
          mActive := txn.activate key .ledgerTxnEntry
          mEntry := txn.mEntry.insert key (some entry) } := by
  obtain ⟨_, ran⟩ := unsealed_of_ok ran
  obtain ⟨_, ran⟩ := allowed_of_ok ran
  cases found : txn.getNewestVersion mParent key with
  | none =>
      rw [found] at ran
      cases ran
      exact .inl ⟨rfl, rfl⟩
  | some entry =>
      rw [found] at ran
      cases ran
      exact .inr ⟨entry, rfl, rfl⟩

theorem loadWithoutRecord_ok {key : κ} (ran : txn.loadWithoutRecord mParent key = .ok after) :
    ∃ active, after = { txn with mActive := active } := by
  obtain ⟨_, ran⟩ := unsealed_of_ok ran
  obtain ⟨_, ran⟩ := allowed_of_ok ran
  cases found : txn.getNewestVersion mParent key with
  | none =>
      rw [found] at ran
      cases ran
      exact ⟨_, rfl⟩
  | some entry =>
      rw [found] at ran
      cases ran
      exact ⟨_, rfl⟩

theorem modify_ok {entry : LedgerEntry κ ν} (ran : txn.modify entry = .ok after) :
    after = { txn with mEntry := txn.mEntry.insert entry.key (some entry) } := by
  obtain ⟨_, ran⟩ := allowed_of_ok ran
  cases ran
  rfl

theorem deactivate_ok {key : κ} (ran : txn.deactivate key = .ok after) :
    ∃ active, after = { txn with mActive := active } := by
  obtain ⟨_, ran⟩ := allowed_of_ok ran
  cases ran
  exact ⟨_, rfl⟩

section

omit [DecidableEq κ]

theorem loadHeader_ok (ran : txn.loadHeader = .ok after) :
    ∃ active, after = { txn with mActiveHeader := active } := by
  obtain ⟨_, ran⟩ := unsealed_of_ok ran
  obtain ⟨_, ran⟩ := allowed_of_ok ran
  cases ran
  exact ⟨_, rfl⟩

theorem modifyHeader_ok {header : LedgerHeader} (ran : txn.modifyHeader header = .ok after) :
    after = { txn with mHeader := header } := by
  obtain ⟨_, ran⟩ := allowed_of_ok ran
  cases ran
  rfl

theorem deactivateHeader_ok (ran : txn.deactivateHeader = .ok after) :
    ∃ active, after = { txn with mActiveHeader := active } := by
  obtain ⟨_, ran⟩ := allowed_of_ok ran
  cases ran
  exact ⟨_, rfl⟩

theorem unsealHeader_ok {f : LedgerHeader → LedgerHeader} (ran : txn.unsealHeader f = .ok after) :
    after = { txn with mHeader := f txn.mHeader } := by
  obtain ⟨_, ran⟩ := allowed_of_ok ran
  obtain ⟨_, ran⟩ := allowed_of_ok ran
  cases ran
  rfl

theorem getChanges_ok {changes : List (LedgerEntryChange κ ν)}
    (ran : txn.getChanges mParent = .ok (changes, after)) : after = txn.sealed := by
  unfold Impl.getChanges Impl.throwIfNotExactConsistency at ran
  split at ran
  · cases ran
  · cases listed : txn.sealed.mEntry.entries.mapM fun kv => Impl.changesOf mParent kv.1 kv.2 with
    | error fault =>
        rw [listed] at ran
        cases ran
    | ok blocks =>
        rw [listed] at ran
        cases ran
        rfl

theorem getDelta_ok {parentHeader : LedgerHeader} {delta : LedgerTxnDelta κ ν}
    (ran : txn.getDelta mParent parentHeader = .ok (delta, after)) : after = txn.sealed := by
  unfold Impl.getDelta Impl.throwIfNotExactConsistency at ran
  split at ran
  · cases ran
  · cases ran
    rfl

end

end Calls

/-! ### Nesting -/

inductive Effect (nesting : Nesting κ ν) (call : Call κ ν) (after : Nesting κ ν) : Prop
  | innermost (txn next : Impl κ ν) (outer : List (Impl κ ν))
      (levels : nesting.levels = txn :: outer)
      (step : Recorded (newest nesting.root outer) txn → Keyed (newest nesting.root outer) →
        Step (newest nesting.root outer) txn next)
      (cons : (∀ key, call ≠ .eraseWithoutLoading key) → next.mConsistency = txn.mConsistency)
      (is : after = { nesting with levels := next :: outer })
  | openFirst (child : Impl κ ν) (empty : child.mEntry = ∅) (cons : child.mConsistency = .EXACT)
      (levels : nesting.levels = []) (is : after = { nesting with levels := [child] })
  | openChild (child parent : Impl κ ν) (empty : child.mEntry = ∅)
      (cons : child.mConsistency = .EXACT) (outer : List (Impl κ ν))
      (levels : nesting.levels = parent :: outer)
      (is : after = { nesting with
        levels := child :: { parent with mActive := ∅, mActiveHeader := false } :: outer })
  | commitRoot (child : Impl κ ν) (root : Root κ ν) (levels : nesting.levels = [child])
      (written : nesting.root.commitChild child.sealed = .ok root)
      (is : after = { root, levels := [] })
  | commitChild (child parent : Impl κ ν) (outer : List (Impl κ ν))
      (levels : nesting.levels = child :: parent :: outer)
      (is : after = { nesting with
        levels := parent.commitChild (newest nesting.root outer) child.sealed :: outer })
  | rollback (count : Nat) (is : after = { nesting with levels := nesting.levels.drop count })

theorem innermost_ok {nesting after : Nesting κ ν}
    {f : View κ ν → Impl κ ν → Except Fault (Impl κ ν)} (ran : nesting.innermost f = .ok after) :
    ∃ txn next outer, nesting.levels = txn :: outer ∧ f (newest nesting.root outer) txn = .ok next ∧
      after = { nesting with levels := next :: outer } := by
  unfold Nesting.innermost at ran
  split at ran
  · cases ran
  · rename_i txn outer levels
    cases stepped : f (newest nesting.root outer) txn with
    | error fault =>
        rw [stepped] at ran
        cases ran
    | ok next =>
        rw [stepped] at ran
        cases ran
        exact ⟨txn, next, outer, levels, stepped, rfl⟩

theorem Effect.ofStep {nesting after : Nesting κ ν} {call : Call κ ν}
    {f : View κ ν → Impl κ ν → Except Fault (Impl κ ν)} (ran : nesting.innermost f = .ok after)
    (steps : ∀ mParent txn next, f mParent txn = .ok next → next.mConsistency = txn.mConsistency ∧
      (Recorded mParent txn → Keyed mParent → Step mParent txn next)) :
    Effect nesting call after := by
  obtain ⟨txn, next, outer, levels, stepped, is⟩ := innermost_ok ran
  obtain ⟨cons, step⟩ := steps _ _ _ stepped
  exact .innermost txn next outer levels step (fun _ => cons) is

theorem openChild_effect {nesting after : Nesting κ ν} {shouldUpdateLastModified : Bool}
    (ran : nesting.openChild shouldUpdateLastModified = .ok after) :
    Effect nesting (.openChild shouldUpdateLastModified) after := by
  unfold Nesting.openChild at ran
  simp only at ran
  split at ran
  · rename_i levels
    cases ran
    exact .openFirst _ rfl rfl levels rfl
  · rename_i txn outer levels
    unfold Impl.throwIfSealed at ran
    split at ran
    · cases ran
    · cases ran
      exact .openChild _ txn rfl rfl outer levels rfl

theorem commit_effect {nesting after : Nesting κ ν} (ran : nesting.commit = .ok after) :
    Effect nesting .commit after := by
  unfold Nesting.commit at ran
  split at ran
  · cases ran
  · rename_i child levels
    cases written : nesting.root.commitChild child.sealed with
    | error fault =>
        rw [written] at ran
        cases ran
    | ok root =>
        rw [written] at ran
        cases ran
        exact .commitRoot child root levels written rfl
  · rename_i child parent outer levels
    cases ran
    exact .commitChild child parent outer levels rfl

theorem call_effect {nesting after : Nesting κ ν} {call : Call κ ν}
    (ran : nesting.call call = .ok after) : Effect nesting call after := by
  cases call with
  | openChild shouldUpdateLastModified => exact openChild_effect ran
  | create entry =>
      unfold Nesting.call at ran
      apply Effect.ofStep ran
      intro mParent txn next stepped
      obtain ⟨_, rfl⟩ := create_ok stepped
      exact ⟨rfl, fun _ _ => .put entry rfl rfl⟩
  | createOrUpdateWithoutLoading entry =>
      unfold Nesting.call at ran
      apply Effect.ofStep ran
      intro mParent txn next stepped
      obtain rfl := createOrUpdateWithoutLoading_ok stepped
      exact ⟨rfl, fun _ _ => .put entry rfl rfl⟩
  | load key =>
      unfold Nesting.call at ran
      apply Effect.ofStep ran
      intro mParent txn next stepped
      rcases load_ok stepped with ⟨_, rfl⟩ | ⟨entry, found, rfl⟩
      · exact ⟨rfl, fun _ _ => .keep rfl rfl⟩
      · refine ⟨rfl, fun recorded keyed => ?_⟩
        have own : entry.key = key := recorded.newest_keyed keyed key entry found
        subst own
        exact .put entry rfl rfl
  | loadWithoutRecord key =>
      unfold Nesting.call at ran
      apply Effect.ofStep ran
      intro mParent txn next stepped
      obtain ⟨active, rfl⟩ := loadWithoutRecord_ok stepped
      exact ⟨rfl, fun _ _ => .keep rfl rfl⟩
  | modify entry =>
      unfold Nesting.call at ran
      apply Effect.ofStep ran
      intro mParent txn next stepped
      obtain rfl := modify_ok stepped
      exact ⟨rfl, fun _ _ => .put entry rfl rfl⟩
  | deactivate key =>
      unfold Nesting.call at ran
      apply Effect.ofStep ran
      intro mParent txn next stepped
      obtain ⟨active, rfl⟩ := deactivate_ok stepped
      exact ⟨rfl, fun _ _ => .keep rfl rfl⟩
  | erase key =>
      unfold Nesting.call at ran
      apply Effect.ofStep ran
      intro mParent txn next stepped
      obtain ⟨_, rfl⟩ := erase_ok stepped
      exact ⟨rfl, fun _ _ => .forget key rfl rfl⟩
  | eraseWithoutLoading key =>
      unfold Nesting.call at ran
      obtain ⟨txn, next, outer, levels, stepped, is⟩ := innermost_ok ran
      obtain rfl := eraseWithoutLoading_ok stepped
      refine .innermost txn _ outer levels (fun _ _ => .drop rfl key rfl) ?_ is
      intro other
      exact (other key rfl).elim
  | loadHeader =>
      unfold Nesting.call at ran
      apply Effect.ofStep ran
      intro mParent txn next stepped
      obtain ⟨active, rfl⟩ := loadHeader_ok stepped
      exact ⟨rfl, fun _ _ => .keep rfl rfl⟩
  | modifyHeader header =>
      unfold Nesting.call at ran
      apply Effect.ofStep ran
      intro mParent txn next stepped
      obtain rfl := modifyHeader_ok stepped
      exact ⟨rfl, fun _ _ => .keep rfl rfl⟩
  | deactivateHeader =>
      unfold Nesting.call at ran
      apply Effect.ofStep ran
      intro mParent txn next stepped
      obtain ⟨active, rfl⟩ := deactivateHeader_ok stepped
      exact ⟨rfl, fun _ _ => .keep rfl rfl⟩
  | unsealHeader f =>
      unfold Nesting.call at ran
      apply Effect.ofStep ran
      intro mParent txn next stepped
      obtain rfl := unsealHeader_ok stepped
      exact ⟨rfl, fun _ _ => .keep rfl rfl⟩
  | getChanges =>
      unfold Nesting.call at ran
      apply Effect.ofStep ran
      intro mParent txn next stepped
      cases reported : txn.getChanges mParent with
      | error fault =>
          rw [reported] at stepped
          cases stepped
      | ok result =>
          rw [reported] at stepped
          cases stepped
          have is := getChanges_ok reported
          rw [is]
          exact ⟨sealed_mConsistency txn, fun _ _ => .close rfl⟩
  | getDelta =>
      unfold Nesting.call at ran
      apply Effect.ofStep ran
      intro mParent txn next stepped
      cases reported : txn.getDelta mParent (header nesting.root nesting.levels.tail) with
      | error fault =>
          rw [reported] at stepped
          cases stepped
      | ok result =>
          rw [reported] at stepped
          cases stepped
          have is := getDelta_ok reported
          rw [is]
          exact ⟨sealed_mConsistency txn, fun _ _ => .close rfl⟩
  | getAllEntries =>
      unfold Nesting.call at ran
      apply Effect.ofStep ran
      intro mParent txn next stepped
      cases stepped
      exact ⟨sealed_mConsistency txn, fun _ _ => .close rfl⟩
  | commit => exact commit_effect ran
  | rollback descendants =>
      cases ran
      exact .rollback _ rfl

theorem AllRecorded.drop {root : Root κ ν} {levels : List (Impl κ ν)}
    (recorded : AllRecorded root levels) (count : Nat) : AllRecorded root (levels.drop count) := by
  induction count generalizing levels with
  | zero => exact recorded
  | succ count ih =>
      cases levels with
      | nil => exact recorded
      | cons txn outer => exact ih recorded.2

theorem commitEntry_recorded {mParent : View κ ν} {txn : Impl κ ν} (recorded : Recorded mParent txn)
    (kv : Sigma fun _ : κ => Option (LedgerEntry κ ν))
    (keyed : ∀ entry, kv.2 = some entry → entry.key = kv.1) :
    Recorded mParent { txn with mEntry := Impl.commitEntry mParent txn.mEntry kv } := by
  obtain ⟨key, record⟩ := kv
  cases record with
  | none => exact forget_recorded recorded key
  | some entry =>
      have own : entry.key = key := keyed entry rfl
      subst own
      exact put_recorded recorded entry

theorem commitChild_recorded {mParent : View κ ν} {parent child : Impl κ ν}
    (recorded : Recorded mParent parent)
    (keyed : ∀ key entry, child.mEntry.lookup key = some (some entry) → entry.key = key) :
    Recorded mParent (parent.commitChild mParent child) := by
  have fold : ∀ (entries : List (Sigma fun _ : κ => Option (LedgerEntry κ ν))) (txn : Impl κ ν),
      (∀ kv ∈ entries, ∀ entry, kv.2 = some entry → entry.key = kv.1) → Recorded mParent txn →
      Recorded mParent { txn with mEntry := entries.foldl (Impl.commitEntry mParent) txn.mEntry } := by
    intro entries
    induction entries with
    | nil => exact fun _ _ recorded => recorded
    | cons kv rest ih =>
        intro txn keyed recorded
        exact ih { txn with mEntry := Impl.commitEntry mParent txn.mEntry kv }
          (fun other member => keyed other (List.mem_cons_of_mem _ member))
          (commitEntry_recorded recorded kv (keyed kv List.mem_cons_self))
  have folded := fold child.mEntry.entries parent (by
    intro kv member entry is
    apply keyed
    rw [← is]
    exact AList.mem_lookup_iff.mpr member) recorded
  constructor
  · exact folded.keyed
  · intro cons
    apply folded.exact_
    unfold Impl.commitChild at cons
    cases own : parent.mConsistency with
    | EXACT => rfl
    | EXTRA_DELETES =>
        rw [own] at cons
        cases cons

theorem call_recorded {nesting after : Nesting κ ν} {call : Call κ ν}
    (ran : nesting.call call = .ok after) (recorded : AllRecorded nesting.root nesting.levels) :
    AllRecorded after.root after.levels := by
  have nothing : ∀ (mParent : View κ ν) (child : Impl κ ν), child.mEntry = ∅ →
      Recorded mParent child := by
    intro mParent child empty
    constructor
    · intro key entry found
      rw [empty] at found
      cases found
    · intro _ key found
      rw [empty] at found
      cases found
  cases call_effect ran with
  | innermost txn next outer levels step cons is =>
      rw [levels] at recorded
      rw [is]
      exact ⟨(step recorded.1 recorded.2.keyed).recorded recorded.1, recorded.2⟩
  | openFirst child empty cons levels is =>
      rw [is]
      exact ⟨nothing _ child empty, trivial⟩
  | openChild child parent empty cons outer levels is =>
      rw [levels] at recorded
      rw [is]
      exact ⟨nothing _ child empty, recorded.1.congr rfl rfl, recorded.2⟩
  | commitRoot child root levels written is =>
      rw [is]
      trivial
  | commitChild child parent outer levels is =>
      rw [levels] at recorded
      rw [is]
      exact ⟨commitChild_recorded recorded.2.1 (sealed_recorded recorded.1).keyed, recorded.2.2⟩
  | rollback count is =>
      rw [is]
      exact recorded.drop count

theorem run_recorded {nesting : Nesting κ ν} (calls : List (Call κ ν))
    (recorded : AllRecorded nesting.root nesting.levels) :
    AllRecorded (nesting.run calls).root (nesting.run calls).levels := by
  induction calls generalizing nesting with
  | nil => exact recorded
  | cons call rest ih =>
      apply ih
      unfold Nesting.perform
      cases ran : nesting.call call with
      | ok after => exact call_recorded ran recorded
      | error fault => exact recorded

theorem call_exact {nesting after : Nesting κ ν} {call : Call κ ν}
    (ran : nesting.call call = .ok after) (other : ∀ key, call ≠ .eraseWithoutLoading key)
    (exact_ : ∀ txn ∈ nesting.levels, txn.mConsistency = .EXACT) :
    ∀ txn ∈ after.levels, txn.mConsistency = .EXACT := by
  cases call_effect ran with
  | innermost txn next outer levels step cons is =>
      rw [levels] at exact_
      obtain ⟨here, outside⟩ := List.forall_mem_cons.mp exact_
      rw [is]
      exact List.forall_mem_cons.mpr ⟨(cons other).trans here, outside⟩
  | openFirst child empty cons levels is =>
      rw [is]
      exact List.forall_mem_cons.mpr ⟨cons, fun _ impossible => by cases impossible⟩
  | openChild child parent empty cons outer levels is =>
      rw [levels] at exact_
      obtain ⟨here, outside⟩ := List.forall_mem_cons.mp exact_
      rw [is]
      exact List.forall_mem_cons.mpr ⟨cons, List.forall_mem_cons.mpr ⟨here, outside⟩⟩
  | commitRoot child root levels written is =>
      rw [is]
      intro txn impossible
      cases impossible
  | commitChild child parent outer levels is =>
      rw [levels] at exact_
      obtain ⟨inner, outside⟩ := List.forall_mem_cons.mp exact_
      obtain ⟨here, outside⟩ := List.forall_mem_cons.mp outside
      have joined : joinConsistencyLevels parent.mConsistency child.sealed.mConsistency = .EXACT := by
        rw [here, sealed_mConsistency, inner]
        rfl
      rw [is]
      exact List.forall_mem_cons.mpr ⟨joined, outside⟩
  | rollback count is =>
      rw [is]
      intro txn member
      exact exact_ txn (List.mem_of_mem_drop member)

theorem run_exact {nesting : Nesting κ ν} (calls : List (Call κ ν))
    (others : ∀ call ∈ calls, ∀ key, call ≠ .eraseWithoutLoading key)
    (exact_ : ∀ txn ∈ nesting.levels, txn.mConsistency = .EXACT) :
    ∀ txn ∈ (nesting.run calls).levels, txn.mConsistency = .EXACT := by
  induction calls generalizing nesting with
  | nil => exact exact_
  | cons call rest ih =>
      apply ih (fun later member => others later (List.mem_cons_of_mem _ member))
      unfold Nesting.perform
      cases ran : nesting.call call with
      | ok after => exact call_exact ran (others call List.mem_cons_self) exact_
      | error fault => exact exact_

end ViiCore.LedgerTxn
