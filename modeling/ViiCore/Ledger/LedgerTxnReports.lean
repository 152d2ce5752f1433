import ViiCore.Library.Replay
import ViiCore.Ledger.LedgerTxnRecords

/-!
What a transaction reports of itself, replayed over the view of its parent, gives its own view.

The edits that stand for a report fit only what the report says was there before: a created or
initial entry an absent key, a state the very entry, an updated, live, removed or dead one a key
that is present.
-/

namespace ViiCore.LedgerTxn

open ViiCore.FiniteMap ViiCore.Replay
open ViiCore.Ledger (LedgerHeader)

variable {κ ν : Type} [DecidableEq κ]

/-! ### Reports as edits -/

def edit [DecidableEq ν] : LedgerEntryChange κ ν → Edit κ (LedgerEntry κ ν)
  | .LEDGER_ENTRY_STATE state => ⟨state.key, fun before => before = some state, some state⟩
  | .LEDGER_ENTRY_UPDATED updated => ⟨updated.key, Option.isSome, some updated⟩
  | .LEDGER_ENTRY_REMOVED removed => ⟨removed, Option.isSome, none⟩
  | .LEDGER_ENTRY_CREATED created => ⟨created.key, Option.isNone, some created⟩

def LedgerTxnDelta.edits [DecidableEq ν] (delta : LedgerTxnDelta κ ν) :
    List (Edit κ (LedgerEntry κ ν)) :=
  delta.entry.map fun (key, current, previous) => ⟨key, fun before => before = previous, current⟩

/-- A dead entry that must have been there, or one that may be extra. -/
def deadEdit (cons : LedgerTxnConsistency) (key : κ) : Edit κ (LedgerEntry κ ν) :=
  ⟨key, fun before => cons = .EXTRA_DELETES ∨ before.isSome, none⟩

def AllEntries.edits (lists : AllEntries κ ν) (cons : LedgerTxnConsistency) :
    List (Edit κ (LedgerEntry κ ν)) :=
  (lists.initEntries.map fun entry => ⟨entry.key, Option.isNone, some entry⟩) ++
    (lists.liveEntries.map fun entry => ⟨entry.key, Option.isSome, some entry⟩) ++
    lists.deadEntries.map (deadEdit cons)

def AllEntries.keys (lists : AllEntries κ ν) : List κ :=
  lists.initEntries.map LedgerEntry.key ++ lists.liveEntries.map LedgerEntry.key ++ lists.deadEntries

theorem newest_cons (root : Root κ ν) (txn : Impl κ ν) (outer : List (Impl κ ν)) :
    newest root (txn :: outer) = overlay txn.mEntry.entries (newest root outer) := by
  funext key
  change txn.getNewestVersion (newest root outer) key =
    (txn.mEntry.lookup key).getD (newest root outer key)
  unfold Impl.getNewestVersion
  cases txn.mEntry.lookup key with
  | none => rfl
  | some record => rfl

section Reports

variable {mParent : View κ ν} {txn : Impl κ ν}

theorem Recorded.entry_key (recorded : Recorded mParent txn)
    {kv : Sigma fun _ : κ => Option (LedgerEntry κ ν)} (member : kv ∈ txn.mEntry.entries)
    {entry : LedgerEntry κ ν} (is : kv.2 = some entry) : entry.key = kv.1 := by
  apply recorded.keyed
  rw [← is]
  exact AList.mem_lookup_iff.mpr member

theorem Recorded.erased_present (recorded : Recorded mParent txn)
    (cons : txn.mConsistency = .EXACT) {kv : Sigma fun _ : κ => Option (LedgerEntry κ ν)}
    (member : kv ∈ txn.mEntry.entries) (is : kv.2 = none) : (mParent kv.1).isSome := by
  apply recorded.exact_ cons
  rw [← is]
  exact AList.mem_lookup_iff.mpr member

/-! ### Delta -/

theorem getDelta_replay [DecidableEq ν] (mParent : View κ ν) (parentHeader : LedgerHeader)
    (cons : txn.mConsistency = .EXACT) :
    ∃ delta, txn.getDelta mParent parentHeader = .ok (delta, txn.sealed) ∧
      delta.entry = (txn.sealed.mEntry.keys.map fun key =>
        (key, overlay txn.sealed.mEntry.entries mParent key, mParent key)) ∧
      delta.header = (txn.mHeader, parentHeader) ∧
      replay delta.edits mParent = some (overlay txn.sealed.mEntry.entries mParent) := by
  refine ⟨{ entry := txn.sealed.mEntry.entries.map fun kv => (kv.1, kv.2, mParent kv.1)
            header := (txn.mHeader, parentHeader) }, ?_, ?_, rfl, ?_⟩
  · unfold Impl.getDelta Impl.throwIfNotExactConsistency
    rw [if_neg (not_not.mpr cons)]
    rfl
  · unfold AList.keys List.keys
    rw [List.map_map]
    apply List.map_congr_left
    intro kv member
    rw [Function.comp_apply, overlay_of_mem txn.sealed.mEntry.nodupKeys member]
  · have blocks := replay_blocks
      (fun kv : Sigma fun _ : κ => Option (LedgerEntry κ ν) =>
        [⟨kv.1, fun before => before = mParent kv.1, kv.2⟩])
      txn.sealed.mEntry.entries mParent txn.sealed.mEntry.nodupKeys (by
        intro kv member other agrees
        unfold replay
        simp only [agrees, decide_true, if_true]
        rfl)
    rw [← blocks, ← List.map_eq_flatMap]
    unfold LedgerTxnDelta.edits
    rw [List.map_map]
    rfl

/-! ### Changes -/

omit [DecidableEq κ] in
theorem changesOf_ok (key : κ) (record : Option (LedgerEntry κ ν))
    (present : record = none → (mParent key).isSome) :
    ∃ changes, Impl.changesOf mParent key record = .ok changes := by
  unfold Impl.changesOf
  cases previous : mParent key with
  | some before => cases record <;> exact ⟨_, rfl⟩
  | none =>
      cases record with
      | some entry => exact ⟨_, rfl⟩
      | none =>
          rw [previous] at present
          cases present rfl

theorem changesOf_brings [DecidableEq ν] (keyed : Keyed mParent)
    {kv : Sigma fun _ : κ => Option (LedgerEntry κ ν)}
    (own : ∀ entry, kv.2 = some entry → entry.key = kv.1)
    {changes : List (LedgerEntryChange κ ν)}
    (reported : Impl.changesOf mParent kv.1 kv.2 = .ok changes)
    (other : View κ ν) (agrees : other kv.1 = mParent kv.1) :
    replay (changes.map edit) other = some (Function.update other kv.1 kv.2) := by
  obtain ⟨key, record⟩ := kv
  simp only at own reported agrees ⊢
  unfold Impl.changesOf at reported
  cases previous : mParent key with
  | some before =>
      rw [previous] at reported agrees
      have beforeKey : before.key = key := keyed key before previous
      cases record with
      | some entry =>
          cases reported
          have entryKey : entry.key = key := own entry rfl
          simp only [List.map_cons, List.map_nil, edit, replay, beforeKey, entryKey, agrees,
            decide_true, if_true, Function.update_self, Option.isSome_some, Function.update_idem]
      | none =>
          cases reported
          simp only [List.map_cons, List.map_nil, edit, replay, beforeKey, agrees,
            decide_true, if_true, Function.update_self, Option.isSome_some, Function.update_idem]
  | none =>
      rw [previous] at reported agrees
      cases record with
      | some entry =>
          cases reported
          have entryKey : entry.key = key := own entry rfl
          simp only [List.map_cons, List.map_nil, edit, replay, entryKey, agrees,
            Option.isNone_none, if_true]
      | none => cases reported

/-- The changes of one key, told by what the parent and the transaction itself see there. -/
def described (parent own : View κ ν) (key : κ) : List (LedgerEntryChange κ ν) :=
  match parent key, own key with
  | none, none => []
  | none, some entry => [.LEDGER_ENTRY_CREATED entry]
  | some previous, some entry => [.LEDGER_ENTRY_STATE previous, .LEDGER_ENTRY_UPDATED entry]
  | some previous, none => [.LEDGER_ENTRY_STATE previous, .LEDGER_ENTRY_REMOVED key]

omit [DecidableEq κ] in
theorem changesOf_described {own : View κ ν} {key : κ} {changes : List (LedgerEntryChange κ ν)}
    (reported : Impl.changesOf mParent key (own key) = .ok changes) :
    changes = described mParent own key := by
  unfold Impl.changesOf at reported
  unfold described
  cases previous : mParent key with
  | none =>
      cases record : own key with
      | none =>
          rw [previous, record] at reported
          cases reported
      | some entry =>
          rw [previous, record] at reported
          cases reported
          rfl
  | some before =>
      cases record : own key with
      | none =>
          rw [previous, record] at reported
          cases reported
          rfl
      | some entry =>
          rw [previous, record] at reported
          cases reported
          rfl

def LedgerEntryChange.changed : LedgerEntryChange κ ν → Option κ
  | .LEDGER_ENTRY_STATE _ => none
  | .LEDGER_ENTRY_UPDATED updated => some updated.key
  | .LEDGER_ENTRY_REMOVED removed => some removed
  | .LEDGER_ENTRY_CREATED created => some created.key

omit [DecidableEq κ] in
theorem changesOf_changed {kv : Sigma fun _ : κ => Option (LedgerEntry κ ν)}
    (own : ∀ entry, kv.2 = some entry → entry.key = kv.1)
    {changes : List (LedgerEntryChange κ ν)}
    (reported : Impl.changesOf mParent kv.1 kv.2 = .ok changes) :
    changes.filterMap LedgerEntryChange.changed = [kv.1] := by
  obtain ⟨key, record⟩ := kv
  simp only at own reported ⊢
  unfold Impl.changesOf at reported
  cases previous : mParent key with
  | some before =>
      rw [previous] at reported
      cases record with
      | some entry =>
          cases reported
          have entryKey : entry.key = key := own entry rfl
          simp only [List.filterMap_cons, List.filterMap_nil, LedgerEntryChange.changed, entryKey]
      | none =>
          cases reported
          simp only [List.filterMap_cons, List.filterMap_nil, LedgerEntryChange.changed]
  | none =>
      rw [previous] at reported
      cases record with
      | some entry =>
          cases reported
          have entryKey : entry.key = key := own entry rfl
          simp only [List.filterMap_cons, List.filterMap_nil, LedgerEntryChange.changed, entryKey]
      | none => cases reported

theorem mapM_ok {α β ε : Type} {f : α → Except ε β} {g : α → β} {items : List α}
    (all : ∀ item ∈ items, f item = .ok (g item)) : items.mapM f = .ok (items.map g) := by
  induction items with
  | nil => rfl
  | cons item rest ih =>
      rw [List.mapM_cons, all item List.mem_cons_self,
        ih fun later member => all later (List.mem_cons_of_mem _ member)]
      rfl

theorem getChanges_replay [DecidableEq ν] (recorded : Recorded mParent txn) (keyed : Keyed mParent)
    (cons : txn.mConsistency = .EXACT) :
    ∃ changes, txn.getChanges mParent = .ok (changes, txn.sealed) ∧
      changes = txn.sealed.mEntry.keys.flatMap
        (described mParent (overlay txn.sealed.mEntry.entries mParent)) ∧
      changes.filterMap LedgerEntryChange.changed = txn.sealed.mEntry.keys ∧
      replay (changes.map edit) mParent = some (overlay txn.sealed.mEntry.entries mParent) := by
  have closed := sealed_recorded recorded
  have closedCons : txn.sealed.mConsistency = .EXACT := (sealed_mConsistency txn).trans cons
  -- no recorded erasure is of a key that the parent lacks, so every block is reported
  have reports : ∀ kv : Sigma fun _ : κ => Option (LedgerEntry κ ν),
      ∃ changes, kv ∈ txn.sealed.mEntry.entries →
        Impl.changesOf mParent kv.1 kv.2 = .ok changes := by
    intro kv
    by_cases member : kv ∈ txn.sealed.mEntry.entries
    · obtain ⟨changes, reported⟩ := changesOf_ok kv.1 kv.2 (closed.erased_present closedCons member)
      exact ⟨changes, fun _ => reported⟩
    · exact ⟨[], fun there => (member there).elim⟩
  choose block reported using reports
  refine ⟨(txn.sealed.mEntry.entries.map block).flatten, ?_, ?_, ?_, ?_⟩
  · unfold Impl.getChanges Impl.throwIfNotExactConsistency
    rw [if_neg (not_not.mpr cons), mapM_ok reported]
    rfl
  · unfold AList.keys List.keys
    rw [← List.flatMap_def, List.flatMap_map]
    apply List.flatMap_congr
    intro kv member
    apply changesOf_described
    rw [overlay_of_mem txn.sealed.mEntry.nodupKeys member]
    exact reported kv member
  · rw [← List.flatMap_def, List.filterMap_flatMap]
    unfold AList.keys List.keys
    rw [List.map_eq_flatMap]
    apply List.flatMap_congr
    intro kv member
    exact changesOf_changed (fun entry is => closed.entry_key member is) (reported kv member)
  · rw [← List.flatMap_def, List.map_flatMap]
    apply replay_blocks
    · exact txn.sealed.mEntry.nodupKeys
    · intro kv member other agrees
      exact changesOf_brings keyed (fun entry is => closed.entry_key member is) (reported kv member)
        other agrees

/-! ### Initial, live and dead entries -/

def entryEdit (mParent : View κ ν) (cons : LedgerTxnConsistency)
    (kv : Sigma fun _ : κ => Option (LedgerEntry κ ν)) : Edit κ (LedgerEntry κ ν) :=
  match kv.2 with
  | none => deadEdit cons kv.1
  | some entry =>
      if (mParent kv.1).isNone then ⟨kv.1, Option.isNone, some entry⟩
      else ⟨kv.1, Option.isSome, some entry⟩

theorem entryEdit_brings (cons : LedgerTxnConsistency)
    {kv : Sigma fun _ : κ => Option (LedgerEntry κ ν)}
    (present : cons = .EXACT → kv.2 = none → (mParent kv.1).isSome)
    (other : View κ ν) (agrees : other kv.1 = mParent kv.1) :
    replay [entryEdit mParent cons kv] other = some (Function.update other kv.1 kv.2) := by
  obtain ⟨key, record⟩ := kv
  simp only at present agrees ⊢
  cases record with
  | none =>
      have fits : (deadEdit cons key : Edit κ (LedgerEntry κ ν)).fits (other key) = true := by
        unfold deadEdit
        simp only [decide_eq_true_eq]
        cases cons with
        | EXACT =>
            right
            rw [agrees]
            exact present rfl rfl
        | EXTRA_DELETES => exact .inl rfl
      change (if (deadEdit cons key : Edit κ (LedgerEntry κ ν)).fits (other key) = true then _ else _) = _
      rw [if_pos fits]
      rfl
  | some entry =>
      unfold entryEdit
      simp only
      by_cases absent : (mParent key).isNone
      · rw [if_pos absent]
        simp only [replay, agrees, absent, if_true]
      · have there : (mParent key).isSome = true := by
          cases found : mParent key with
          | none => simp [found] at absent
          | some before => rfl
        rw [if_neg absent]
        simp only [replay, agrees, there, if_true]

def sorted (mParent : View κ ν) (entries : List (Sigma fun _ : κ => Option (LedgerEntry κ ν))) :
    List (Sigma fun _ : κ => Option (LedgerEntry κ ν)) :=
  (entries.filter fun kv => kv.2.isSome && (mParent kv.1).isNone) ++
    (entries.filter fun kv => kv.2.isSome && (mParent kv.1).isSome) ++
    entries.filter fun kv => kv.2.isNone

omit [DecidableEq κ] in
theorem sorted_perm (mParent : View κ ν)
    (entries : List (Sigma fun _ : κ => Option (LedgerEntry κ ν))) :
    (sorted mParent entries).Perm entries := by
  induction entries with
  | nil => exact List.Perm.refl _
  | cons kv rest ih =>
      unfold sorted at ih ⊢
      cases record : kv.2 with
      | none =>
          simp only [List.filter_cons, record, Option.isSome_none, Option.isNone_none,
            Bool.false_and, Bool.false_eq_true, if_false, if_true]
          exact List.perm_middle.trans (ih.cons kv)
      | some entry =>
          cases previous : mParent kv.1 with
          | none =>
              simp only [List.filter_cons, record, previous, Option.isSome_some, Option.isNone_some,
                Option.isSome_none, Option.isNone_none, Bool.true_and, Bool.false_eq_true, if_false,
                if_true, List.cons_append]
              exact ih.cons kv
          | some before =>
              simp only [List.filter_cons, record, previous, Option.isSome_some, Option.isNone_some,
                Bool.true_and, Bool.false_eq_true, if_false, if_true, List.append_assoc,
                List.cons_append] at ih ⊢
              exact List.perm_middle.trans (ih.cons kv)

theorem filterMap_eq_filter {α β : Type} {items : List α} {chosen : α → Bool} {pick : α → Option β}
    {γ : Type} {f : β → γ} {g : α → γ}
    (picks : ∀ item ∈ items, (chosen item = true ∧ ∃ value, pick item = some value ∧ f value = g item) ∨
      (chosen item = false ∧ pick item = none)) :
    (items.filterMap pick).map f = (items.filter chosen).map g := by
  induction items with
  | nil => rfl
  | cons item rest ih =>
      have later := ih fun other member => picks other (List.mem_cons_of_mem _ member)
      rcases picks item List.mem_cons_self with ⟨is, value, picked, same⟩ | ⟨is, picked⟩
      · rw [List.filterMap_cons_some picked, List.filter_cons_of_pos is, List.map_cons, List.map_cons,
          same, later]
      · rw [List.filterMap_cons_none picked, List.filter_cons_of_neg (by simp [is]), later]

theorem getAllEntries_lists (recorded : Recorded mParent txn) {γ : Type}
    (init live : LedgerEntry κ ν → γ) (dead : κ → γ)
    (g : (Sigma fun _ : κ => Option (LedgerEntry κ ν)) → γ)
    (initIs : ∀ key entry, entry.key = key → (mParent key).isNone → init entry = g ⟨key, some entry⟩)
    (liveIs : ∀ key entry, entry.key = key → (mParent key).isSome → live entry = g ⟨key, some entry⟩)
    (deadIs : ∀ key, dead key = g ⟨key, none⟩) :
    let lists := (txn.getAllEntries mParent).1
    lists.initEntries.map init ++ lists.liveEntries.map live ++ lists.deadEntries.map dead =
      (sorted mParent txn.sealed.mEntry.entries).map g := by
  have closed := sealed_recorded recorded
  unfold sorted Impl.getAllEntries
  simp only [List.map_append]
  congr 1
  · congr 1
    · apply filterMap_eq_filter
      intro kv member
      obtain ⟨key, record⟩ := kv
      cases record with
      | none =>
          right
          simp
      | some entry =>
          cases previous : mParent key with
          | none =>
              left
              refine ⟨by simp, entry, by simp, ?_⟩
              exact initIs key entry (closed.entry_key member rfl) (by simp [previous])
          | some before =>
              right
              simp
    · apply filterMap_eq_filter
      intro kv member
      obtain ⟨key, record⟩ := kv
      cases record with
      | none =>
          right
          simp
      | some entry =>
          cases previous : mParent key with
          | none =>
              right
              simp
          | some before =>
              left
              refine ⟨by simp, entry, by simp, ?_⟩
              exact liveIs key entry (closed.entry_key member rfl) (by simp [previous])
  · apply filterMap_eq_filter
    intro kv member
    obtain ⟨key, record⟩ := kv
    cases record with
    | none =>
        left
        exact ⟨rfl, key, rfl, deadIs key⟩
    | some entry =>
        right
        exact ⟨rfl, rfl⟩

theorem getAllEntries_replay (recorded : Recorded mParent txn) :
    ∃ lists, txn.getAllEntries mParent = (lists, txn.sealed) ∧
      lists.keys.Perm txn.sealed.mEntry.keys ∧
      replay (lists.edits txn.mConsistency) mParent =
        some (overlay txn.sealed.mEntry.entries mParent) := by
  have closed := sealed_recorded recorded
  have order := sorted_perm mParent txn.sealed.mEntry.entries
  have distinct := (List.perm_nodupKeys order).mpr txn.sealed.mEntry.nodupKeys
  refine ⟨(txn.getAllEntries mParent).1, rfl, ?_, ?_⟩
  · have keys := getAllEntries_lists recorded LedgerEntry.key LedgerEntry.key id Sigma.fst
      (fun key entry own _ => own) (fun key entry own _ => own) (fun key => rfl)
    unfold AllEntries.keys
    simp only [List.map_id_fun, id_eq] at keys
    rw [keys]
    exact order.map _
  · have edits := getAllEntries_lists recorded
      (fun entry => (⟨entry.key, Option.isNone, some entry⟩ : Edit κ (LedgerEntry κ ν)))
      (fun entry => ⟨entry.key, Option.isSome, some entry⟩) (deadEdit txn.mConsistency)
      (entryEdit mParent txn.mConsistency)
      (by
        intro key entry own absent
        unfold entryEdit
        simp only [absent, if_true, own])
      (by
        intro key entry own present
        have notAbsent : ¬ (mParent key).isNone := by
          cases found : mParent key with
          | none => simp [found] at present
          | some before => simp
        unfold entryEdit
        simp only
        rw [if_neg notAbsent, own])
      (fun key => rfl)
    unfold AllEntries.edits
    simp only at edits
    rw [edits, List.map_eq_flatMap, ← overlay_perm distinct order]
    apply replay_blocks
    · exact distinct
    · intro kv member other agrees
      apply entryEdit_brings _ _ other agrees
      intro cons is
      exact closed.erased_present ((sealed_mConsistency txn).trans cons) (order.mem_iff.mp member) is

theorem recorded_of_differs {key : κ}
    (differs : overlay txn.sealed.mEntry.entries mParent key ≠ mParent key) :
    key ∈ txn.sealed.mEntry.keys := by
  by_contra missing
  apply differs
  unfold overlay
  rw [List.dlookup_eq_none.mpr missing]
  rfl

end Reports

/-! ### Runs -/

/-- The reports of the innermost transaction, with what its parent and what it sees itself. -/
structure Reports [DecidableEq ν] (parent own : View κ ν) (parentHeader : LedgerHeader)
    (txn : Impl κ ν) : Prop where
  /-- Every key at which the views differ is recorded. -/
  recorded : ∀ key, own key ≠ parent key → key ∈ txn.sealed.mEntry.keys
  allEntries : ∃ lists, txn.getAllEntries parent = (lists, txn.sealed) ∧ lists.keys.Nodup ∧
    lists.keys.Perm txn.sealed.mEntry.keys ∧
    replay (lists.edits txn.mConsistency) parent = some own
  delta : txn.mConsistency = .EXACT →
    ∃ delta, txn.getDelta parent parentHeader = .ok (delta, txn.sealed) ∧
      delta.entry = (txn.sealed.mEntry.keys.map fun key => (key, own key, parent key)) ∧
      delta.header = (txn.mHeader, parentHeader) ∧ replay delta.edits parent = some own
  changes : txn.mConsistency = .EXACT →
    ∃ changes, txn.getChanges parent = .ok (changes, txn.sealed) ∧
      changes = txn.sealed.mEntry.keys.flatMap (described parent own) ∧
      changes.filterMap LedgerEntryChange.changed = txn.sealed.mEntry.keys ∧
      replay (changes.map edit) parent = some own

/-- In every run, what the innermost transaction reports takes the view of its parent to its own
view; its consistency is exact as long as `eraseWithoutLoading` has not been called. -/
theorem run_reports [DecidableEq ν] (root : Root κ ν) (calls : List (Call κ ν))
    (reached : Nesting κ ν) (ran : reached = Nesting.run ⟨root, []⟩ calls) (txn : Impl κ ν)
    (outer : List (Impl κ ν)) (innermost : reached.levels = txn :: outer) :
    Reports (newest reached.root outer) (newest reached.root (txn.sealed :: outer))
        (header reached.root outer) txn ∧
      ((∀ call ∈ calls, ∀ key, call ≠ .eraseWithoutLoading key) → txn.mConsistency = .EXACT) := by
  have all : AllRecorded reached.root (txn :: outer) := by
    have recorded : AllRecorded (Nesting.run ⟨root, []⟩ calls).root
        (Nesting.run ⟨root, []⟩ calls).levels := run_recorded calls trivial
    rw [← ran, innermost] at recorded
    exact recorded
  obtain ⟨recorded, outerRecorded⟩ := all
  rw [newest_cons]
  refine ⟨⟨?_, ?_, ?_, ?_⟩, ?_⟩
  · intro key differs
    exact recorded_of_differs differs
  · obtain ⟨lists, reported, keys, replayed⟩ := getAllEntries_replay recorded
    exact ⟨lists, reported, keys.nodup_iff.mpr txn.sealed.mEntry.keys_nodup, keys, replayed⟩
  · intro cons
    exact getDelta_replay (newest reached.root outer) (header reached.root outer) cons
  · intro cons
    exact getChanges_replay recorded outerRecorded.keyed cons
  · intro others
    have exactAll : ∀ level ∈ (Nesting.run ⟨root, []⟩ calls).levels, level.mConsistency = .EXACT :=
      run_exact calls others fun level impossible => by cases impossible
    apply exactAll
    rw [← ran, innermost]
    exact List.mem_cons_self

def smallHeader : LedgerHeader :=
  { ledgerVersion := 11, closeTime := 0, ledgerSeq := 5, totalCoins := 1000, feePool := 0,
    inflationSeq := 0, idPool := 0, baseFee := 1, baseReserve := 10, maxTxSetSize := 1 }

def smallRoot : Root Nat Nat where
  rows := ((∅ : Map Nat (Row Nat)).insert 1 ⟨3, 10⟩).insert 4 ⟨3, 40⟩
  mHeader := smallHeader

/-- A child erases a row, changes another and creates a third, and its parent reports all of them
after the commit. -/
theorem run_reports_committed :
    ∃ txn changes, (Nesting.run ⟨smallRoot, []⟩ [.openChild true, .openChild false, .erase 1,
        .load 4, .modify ⟨3, 4, 41⟩, .create ⟨0, 2, 20⟩, .commit]).levels = [txn] ∧
      txn.getChanges smallRoot.getNewestVersion = .ok (changes, txn.sealed) ∧
      changes = txn.sealed.mEntry.keys.flatMap
        (described smallRoot.getNewestVersion (newest smallRoot [txn.sealed])) ∧
      [1, 2, 4].map (described smallRoot.getNewestVersion (newest smallRoot [txn.sealed])) =
        [[.LEDGER_ENTRY_STATE ⟨3, 1, 10⟩, .LEDGER_ENTRY_REMOVED 1],
          [.LEDGER_ENTRY_CREATED ⟨5, 2, 20⟩],
          [.LEDGER_ENTRY_STATE ⟨3, 4, 40⟩, .LEDGER_ENTRY_UPDATED ⟨5, 4, 41⟩]] := by
  obtain ⟨reports, exactly⟩ := run_reports smallRoot [.openChild true, .openChild false, .erase 1,
    .load 4, .modify ⟨3, 4, 41⟩, .create ⟨0, 2, 20⟩, .commit] _ rfl _ [] rfl
  obtain ⟨changes, reported, described, -, -⟩ := reports.changes (exactly (by simp))
  exact ⟨_, changes, rfl, reported, described, rfl⟩

/-- A key that neither view has is reported dead once it has been erased without loading, and
a row that was only loaded is reported with the same entry before and after. -/
theorem reports_unchangedKeys :
    (∃ txn, (Nesting.run ⟨smallRoot, []⟩ [.openChild false, .eraseWithoutLoading 7]).levels = [txn] ∧
      (txn.getAllEntries smallRoot.getNewestVersion).1.deadEntries = [7] ∧
      smallRoot.getNewestVersion 7 = none ∧
      txn.sealed.getNewestVersion smallRoot.getNewestVersion 7 = none) ∧
    ∃ txn delta, (Nesting.run ⟨smallRoot, []⟩ [.openChild false, .load 1]).levels = [txn] ∧
      txn.getDelta smallRoot.getNewestVersion smallHeader = .ok (delta, txn.sealed) ∧
      delta.entry = [(1, some ⟨3, 1, 10⟩, some ⟨3, 1, 10⟩)] := by
  refine ⟨⟨_, rfl, rfl, rfl, rfl⟩, ⟨_, _, rfl, rfl, rfl⟩⟩

end ViiCore.LedgerTxn
