import ViiCore.Ledger.LedgerTxnRoot

/-!
What a commit writes into the database.

Entries are buffered by their type and written in bulk, so the order of the writes is not the order
of the records. Every record is written once all the same, and where no two keys share a row the
order does not matter.
-/

namespace ViiCore.LedgerTxn

open ViiCore.FiniteMap

variable {κ ν ρ σ : Type} [DecidableEq κ] [DecidableEq ρ] [DecidableEq σ] {schema : Schema κ ρ σ}

variable (schema) in
omit [DecidableEq κ] [DecidableEq σ] in
def applyWrite (rows : Map ρ (LedgerEntry κ ν)) (write : Write κ ν) : Map ρ (LedgerEntry κ ν) :=
  match write.2 with
  | some entry => rows.insert (schema.primaryKey entry.key) entry
  | none => rows.erase (schema.primaryKey write.1)

/-! ### Buffers -/

def tables : List LedgerEntryType := [.ACCOUNT, .TRUSTLINE, .OFFER, .DATA]

theorem mem_tables (type : LedgerEntryType) : type ∈ tables := by
  cases type <;> decide

theorem flatMap_update_perm {ι α : Type} [DecidableEq ι] {items : List ι} (distinct : items.Nodup)
    (buffers : ι → List α) {item : ι} (member : item ∈ items) (changed : List α) :
    (items.flatMap (Function.update buffers item changed) ++ buffers item).Perm
      (items.flatMap buffers ++ changed) := by
  induction items with
  | nil => cases member
  | cons head rest ih =>
      obtain ⟨absent, distinctRest⟩ := List.nodup_cons.mp distinct
      rw [List.flatMap_cons, List.flatMap_cons]
      by_cases same : item = head
      · subst same
        have unchanged : rest.flatMap (Function.update buffers item changed) = rest.flatMap buffers := by
          apply List.flatMap_congr
          intro other inRest
          have different : other ≠ item := fun equal => absent (equal ▸ inRest)
          exact Function.update_of_ne different _ _
        rw [Function.update_self, unchanged]
        have swapped := List.perm_append_comm_assoc changed (rest.flatMap buffers) (buffers item)
        have exchanged : (changed ++ buffers item).Perm (buffers item ++ changed) :=
          List.perm_append_comm
        have moved := exchanged.append_left (rest.flatMap buffers)
        rw [List.append_assoc]
        apply swapped.trans (moved.trans _)
        rw [← List.append_assoc]
        exact List.perm_append_comm.append_right changed
      · have inRest : item ∈ rest := (List.mem_cons.mp member).resolve_left same
        have different : head ≠ item := fun equal => same equal.symm
        rw [Function.update_of_ne different, List.append_assoc, List.append_assoc]
        exact (ih distinctRest inRest).append_left _

namespace Bulk

variable {bulk after : Bulk κ ν ρ}

def pending (bulk : Bulk κ ν ρ) (type : LedgerEntryType) : List (Write κ ν) :=
  (bulk.bleca.toUpsert type).map (fun kv => ⟨kv.1, some kv.2⟩) ++
    (bulk.bleca.toDelete type).map fun key => ⟨key, none⟩

def buffered (bulk : Bulk κ ν ρ) : List (Write κ ν) := tables.flatMap bulk.pending

variable (schema) in
/-- All writes so far, and all that are buffered, are those of the records met so far. -/
structure Tracks (rows : Map ρ (LedgerEntry κ ν)) (log : List (Write κ ν)) (met : List (Write κ ν))
    (bulk : Bulk κ ν ρ) : Prop where
  writes : ∃ writes, bulk.written = log ++ writes ∧
    bulk.mDatabase = writes.foldl (applyWrite schema) rows ∧ (writes ++ bulk.buffered).Perm met

variable {rows : Map ρ (LedgerEntry κ ν)} {log met : List (Write κ ν)}

omit [DecidableEq κ] [DecidableEq ρ] in
theorem buffered_update {changed : Bulk κ ν ρ} {type : LedgerEntryType} {buffer : List (Write κ ν)}
    (update : changed.pending = Function.update bulk.pending type buffer) :
    (changed.buffered ++ bulk.pending type).Perm (bulk.buffered ++ buffer) := by
  unfold buffered
  rw [update]
  exact flatMap_update_perm (by decide) bulk.pending (mem_tables type) buffer

variable (schema) in
omit [DecidableEq κ] [DecidableEq ρ] [DecidableEq σ] in
theorem accumulate_pending (bulk : Bulk κ ν ρ) (kv : Write κ ν) :
    ∃ buffer, (bulk.accumulate schema kv).pending =
        Function.update bulk.pending (schema.type kv.1) buffer ∧
      buffer.Perm (bulk.pending (schema.type kv.1) ++ [kv]) := by
  obtain ⟨key, record⟩ := kv
  refine ⟨(bulk.accumulate schema ⟨key, record⟩).pending (schema.type key), ?_, ?_⟩
  · funext type
    by_cases same : type = schema.type key
    · subst same
      rw [Function.update_self]
    · rw [Function.update_of_ne same]
      cases record with
      | none => simp [pending, accumulate, Function.update_of_ne same]
      | some entry => simp [pending, accumulate, Function.update_of_ne same]
  · cases record with
    | none => simp [pending, accumulate]
    | some entry =>
        simp only [pending, accumulate, Function.update_self, List.map_append, List.map_cons,
          List.map_nil, List.append_assoc]
        exact List.perm_append_comm.append_left _

section

omit [DecidableEq κ] [DecidableEq σ]

theorem Tracks.accumulate (tracks : Tracks schema rows log met bulk) (kv : Write κ ν) :
    Tracks schema rows log (met ++ [kv]) (bulk.accumulate schema kv) := by
  obtain ⟨writes, logged, stored, perm⟩ := tracks.writes
  obtain ⟨buffer, update, added⟩ := accumulate_pending schema bulk kv
  have same : (bulk.accumulate schema kv).written = bulk.written ∧
      (bulk.accumulate schema kv).mDatabase = bulk.mDatabase := by
    unfold Bulk.accumulate
    cases kv.2 <;> exact ⟨rfl, rfl⟩
  refine ⟨writes, same.1.trans logged, same.2.trans stored, ?_⟩
  have exchanged := buffered_update update
  have joined : ((bulk.accumulate schema kv).buffered ++ bulk.pending (schema.type kv.1)).Perm
      (bulk.buffered ++ [kv] ++ bulk.pending (schema.type kv.1)) := by
    apply exchanged.trans
    rw [List.append_assoc]
    exact (added.trans List.perm_append_comm).append_left _
  have grown := (List.perm_append_right_iff _).mp joined
  have together := grown.append_left writes
  rw [← List.append_assoc] at together
  exact together.trans (perm.append_right [kv])

theorem Tracks.flush (tracks : Tracks schema rows log met bulk) {type : LedgerEntryType}
    {flushed rest : List (Write κ ν)} (buffer : (bulk.pending type).Perm (flushed ++ rest))
    (update : after.pending = Function.update bulk.pending type rest)
    (logged : after.written = bulk.written ++ flushed)
    (stored : after.mDatabase = flushed.foldl (applyWrite schema) bulk.mDatabase) :
    Tracks schema rows log met after := by
  obtain ⟨writes, loggedBefore, storedBefore, perm⟩ := tracks.writes
  refine ⟨writes ++ flushed, ?_, ?_, ?_⟩
  · rw [logged, loggedBefore, List.append_assoc]
  · rw [stored, storedBefore, List.foldl_append]
  · have exchanged := buffered_update update
    have joined : (flushed ++ after.buffered ++ rest).Perm (bulk.buffered ++ rest) := by
      apply List.Perm.trans _ exchanged
      apply List.Perm.trans _ (buffer.symm.append_left after.buffered)
      rw [← List.append_assoc]
      exact List.perm_append_comm.append_right rest
    have moved := (List.perm_append_right_iff _).mp joined
    rw [List.append_assoc]
    exact (moved.append_left writes).trans perm

theorem bulkUpsert_tracks (tracks : Tracks schema rows log met bulk) (type : LedgerEntryType) :
    Tracks schema rows log met (bulk.bulkUpsert schema type) := by
  refine tracks.flush (.refl (bulk.pending type)) ?_ rfl ?_
  · funext other
    by_cases same : other = type
    · subst same
      simp [pending, bulkUpsert]
    · simp [pending, bulkUpsert, Function.update_of_ne same]
  · rw [List.foldl_map]
    rfl

theorem deleteRows_eq (database : Map ρ (LedgerEntry κ ν)) (keys : List κ) :
    (deleteRows schema database keys).1 =
      (keys.map fun key => (⟨key, none⟩ : Write κ ν)).foldl (applyWrite schema) database := by
  induction keys generalizing database with
  | nil => rfl
  | cons key keys ih => exact ih _

theorem bulkDelete_tracks (tracks : Tracks schema rows log met bulk) {type : LedgerEntryType}
    {cons : LedgerTxnConsistency} (ran : bulk.bulkDelete schema cons type = .ok after) :
    Tracks schema rows log met after := by
  unfold bulkDelete at ran
  simp only at ran
  split at ran
  · cases ran
  · cases ran
    have buffer : (bulk.pending type).Perm _ := List.perm_append_comm
    refine tracks.flush buffer ?_ rfl ?_
    · funext other
      by_cases same : other = type
      · subst same
        simp [pending]
      · simp [pending, Function.update_of_ne same]
    · exact deleteRows_eq bulk.mDatabase _

end

structure Empty (bulk : Bulk κ ν ρ) (type : LedgerEntryType) : Prop where
  upserts : bulk.bleca.toUpsert type = []
  deletes : bulk.bleca.toDelete type = []

section

omit [DecidableEq κ] [DecidableEq σ]

/-- One table: what was tracked still is, with nothing to wait for the table itself is empty then,
and a table that was empty stays so. -/
theorem bulkApplyType_spec {type : LedgerEntryType} {cons : LedgerTxnConsistency}
    {bufferThreshold : Nat} (tracks : Tracks schema rows log met bulk)
    (ran : bulk.bulkApplyType schema bufferThreshold cons type = .ok after) :
    Tracks schema rows log met after ∧ (bufferThreshold = 0 → Empty after type) ∧
      ∀ other, Empty bulk other → Empty after other := by
  unfold bulkApplyType at ran
  generalize written : (if (bulk.bleca.toUpsert type).length > bufferThreshold then
    bulk.bulkUpsert schema type else bulk) = middle at ran
  -- The entries of the table come first.
  obtain ⟨middleTracks, emptied, kept, deletes⟩ : Tracks schema rows log met middle ∧
      (bufferThreshold = 0 → middle.bleca.toUpsert type = []) ∧
      (∀ other, bulk.bleca.toUpsert other = [] → middle.bleca.toUpsert other = []) ∧
      middle.bleca.toDelete = bulk.bleca.toDelete := by
    split at written
    · subst written
      refine ⟨bulkUpsert_tracks tracks type, fun _ => Function.update_self .., ?_, rfl⟩
      intro other empty
      by_cases same : other = type
      · subst same
        exact Function.update_self ..
      · exact (Function.update_of_ne same _ _).trans empty
    · rename_i few
      subst written
      refine ⟨tracks, fun zero => ?_, fun _ empty => empty, rfl⟩
      apply List.eq_nil_of_length_eq_zero
      omega
  simp only at ran
  split at ran
  · have afterTracks := bulkDelete_tracks middleTracks ran
    unfold bulkDelete at ran
    simp only at ran
    split at ran
    · cases ran
    · cases ran
      refine ⟨afterTracks, fun zero => ⟨emptied zero, Function.update_self ..⟩, ?_⟩
      intro other empty
      refine ⟨kept other empty.upserts, ?_⟩
      by_cases same : other = type
      · subst same
        exact Function.update_self ..
      · exact (Function.update_of_ne same _ _).trans (deletes ▸ empty.deletes)
  · rename_i few
    cases ran
    refine ⟨middleTracks, fun zero => ⟨emptied zero, ?_⟩, ?_⟩
    · apply List.eq_nil_of_length_eq_zero
      omega
    · intro other empty
      exact ⟨kept other empty.upserts, deletes ▸ empty.deletes⟩

theorem bulkApply_spec {cons : LedgerTxnConsistency} {bufferThreshold : Nat}
    (tracks : Tracks schema rows log met bulk)
    (ran : bulk.bulkApply schema bufferThreshold cons = .ok after) :
    Tracks schema rows log met after ∧ (bufferThreshold = 0 → ∀ type, Empty after type) := by
  have general : ∀ (types : List LedgerEntryType) (start : Bulk κ ν ρ),
      Tracks schema rows log met start →
      types.foldlM (bulkApplyType schema bufferThreshold cons) start = .ok after →
      Tracks schema rows log met after ∧ (bufferThreshold = 0 → ∀ type ∈ types, Empty after type) ∧
        ∀ other, Empty start other → Empty after other := by
    intro types
    induction types with
    | nil =>
        intro start tracked finished
        cases finished
        exact ⟨tracked, fun _ _ absent => (List.not_mem_nil absent).elim, fun _ empty => empty⟩
    | cons type types ih =>
        intro start tracked finished
        rw [List.foldlM_cons] at finished
        obtain ⟨middle, first, finished⟩ := except_bind_ok.mp finished
        obtain ⟨middleTracks, emptied, kept⟩ := bulkApplyType_spec tracked first
        obtain ⟨afterTracks, others, keptLater⟩ := ih middle middleTracks finished
        refine ⟨afterTracks, fun zero other member => ?_, fun other empty =>
          keptLater other (kept other empty)⟩
        rcases List.mem_cons.mp member with rfl | later
        · exact keptLater other (emptied zero)
        · exact others zero other later
  obtain ⟨afterTracks, emptied, -⟩ := general tables bulk tracks ran
  exact ⟨afterTracks, fun zero type => emptied zero type (mem_tables type)⟩

theorem commitLoop_spec {cons : LedgerTxnConsistency} {records : List (Write κ ν)}
    (tracks : Tracks schema rows log met bulk) (ready : records = [] → ∀ type, Empty bulk type)
    (ran : bulk.commitLoop schema cons records = .ok after) :
    Tracks schema rows log (met ++ records) after ∧ ∀ type, Empty after type := by
  induction records generalizing bulk met with
  | nil =>
      cases ran
      rw [List.append_nil]
      exact ⟨tracks, ready rfl⟩
  | cons record rest ih =>
      obtain ⟨middle, applied, ran⟩ := except_bind_ok.mp ran
      obtain ⟨middleTracks, emptied⟩ := bulkApply_spec (tracks.accumulate record) applied
      have readyThen : rest = [] → ∀ type, Empty middle type := by
        intro last
        apply emptied
        rw [last]
        rfl
      obtain ⟨afterTracks, afterEmpty⟩ := ih middleTracks readyThen ran
      rw [List.append_assoc] at afterTracks
      exact ⟨afterTracks, afterEmpty⟩

end

end Bulk

/-! ### Rows -/

variable (schema) in
/-- Every row is found under the primary key of its entry. -/
def RowsKeyed (rows : Map ρ (LedgerEntry κ ν)) : Prop :=
  ∀ primaryKey entry, rows.lookup primaryKey = some entry → schema.primaryKey entry.key = primaryKey

omit [DecidableEq κ] [DecidableEq σ] in
theorem applyWrite_keyed {rows : Map ρ (LedgerEntry κ ν)} (keyed : RowsKeyed schema rows)
    (write : Write κ ν) : RowsKeyed schema (applyWrite schema rows write) := by
  intro primaryKey entry found
  unfold applyWrite at found
  split at found
  · rename_i put _
    by_cases same : primaryKey = schema.primaryKey put.key
    · subst same
      rw [AList.lookup_insert] at found
      cases found
      rfl
    · rw [AList.lookup_insert_ne same] at found
      exact keyed primaryKey entry found
  · by_cases same : primaryKey = schema.primaryKey write.1
    · subst same
      rw [AList.lookup_erase] at found
      cases found
    · rw [AList.lookup_erase_ne same] at found
      exact keyed primaryKey entry found

omit [DecidableEq κ] [DecidableEq σ] in
theorem applyWrites_keyed {rows : Map ρ (LedgerEntry κ ν)} (keyed : RowsKeyed schema rows)
    (writes : List (Write κ ν)) : RowsKeyed schema (writes.foldl (applyWrite schema) rows) := by
  induction writes generalizing rows with
  | nil => exact keyed
  | cons write writes ih => exact ih (applyWrite_keyed keyed write)

section Distinct

variable (distinct : Function.Injective schema.primaryKey)

include distinct

omit [DecidableEq κ] in
theorem loadRow_keyed {rows : Map ρ (LedgerEntry κ ν)} (keyed : RowsKeyed schema rows) :
    Keyed (loadRow schema rows) := by
  intro key entry found
  unfold loadRow at found
  split at found
  · rename_i row stored
    obtain ⟨-, same⟩ := Option.ite_none_right_eq_some.mp found
    cases same
    exact distinct (keyed _ _ stored)
  · cases found

omit [DecidableEq κ] in
theorem loadRow_eq {rows : Map ρ (LedgerEntry κ ν)} (keyed : RowsKeyed schema rows) (key : κ) :
    loadRow schema rows key = rows.lookup (schema.primaryKey key) := by
  unfold loadRow
  cases stored : rows.lookup (schema.primaryKey key) with
  | none => rfl
  | some entry =>
      have same : entry.key = key := distinct (keyed _ _ stored)
      exact if_pos (congrArg schema.columns same)

omit [DecidableEq σ] in
theorem applyWrite_lookup (rows : Map ρ (LedgerEntry κ ν)) {write : Write κ ν}
    (keyed : ∀ entry, write.2 = some entry → entry.key = write.1) (key : κ) :
    (applyWrite schema rows write).lookup (schema.primaryKey key) =
      if key = write.1 then write.2 else rows.lookup (schema.primaryKey key) := by
  obtain ⟨written, record⟩ := write
  have apart (different : key ≠ written) : schema.primaryKey key ≠ schema.primaryKey written :=
    fun same => different (distinct same)
  cases record with
  | none =>
      by_cases same : key = written
      · subst same
        rw [if_pos rfl]
        exact AList.lookup_erase ..
      · rw [if_neg same]
        exact AList.lookup_erase_ne (apart same)
  | some entry =>
      have own : entry.key = written := keyed entry rfl
      unfold applyWrite
      simp only [own]
      by_cases same : key = written
      · subst same
        rw [if_pos rfl]
        exact AList.lookup_insert ..
      · rw [if_neg same]
        exact AList.lookup_insert_ne (apart same)

omit [DecidableEq σ] in
theorem applyWrites_lookup (rows : Map ρ (LedgerEntry κ ν)) {writes : List (Write κ ν)}
    (once : writes.NodupKeys)
    (keyed : ∀ write ∈ writes, ∀ entry, write.2 = some entry → entry.key = write.1) (key : κ) :
    (writes.foldl (applyWrite schema) rows).lookup (schema.primaryKey key) =
      (writes.dlookup key).getD (rows.lookup (schema.primaryKey key)) := by
  induction writes generalizing rows with
  | nil => rfl
  | cons write writes ih =>
      obtain ⟨absent, onceLater⟩ := List.nodupKeys_cons.mp once
      have later := ih (applyWrite schema rows write) onceLater
        fun other member => keyed other (List.mem_cons_of_mem _ member)
      rw [List.foldl_cons, later,
        applyWrite_lookup distinct rows (keyed write List.mem_cons_self) key]
      by_cases same : key = write.1
      · subst same
        have alone : writes.dlookup write.1 = none := List.dlookup_eq_none.mpr absent
        rw [if_pos rfl, alone, List.dlookup_cons_eq]
        rfl
      · rw [if_neg same, List.dlookup_cons_ne _ _ same]

end Distinct

/-! ### The whole commit -/

variable {root after : LedgerTxnRoot κ ν ρ} {child : Impl κ ν}

omit [DecidableEq κ] [DecidableEq σ] in
theorem commitChild_writes (ran : root.commitChild schema child = .ok after) :
    ∃ writes, writes.Perm child.mEntry.entries ∧ after.written = root.written ++ writes ∧
      after.mDatabase = writes.foldl (applyWrite schema) root.mDatabase ∧
      after.mHeader = child.mHeader ∧ after.mEntryCache = root.mEntryCache.clear := by
  unfold LedgerTxnRoot.commitChild at ran
  obtain ⟨bulk, looped, same⟩ := except_bind_ok.mp ran
  cases same
  have tracks : Bulk.Tracks schema root.mDatabase root.written []
      { bleca := { toUpsert := fun _ => [], toDelete := fun _ => [] }
        mDatabase := root.mDatabase
        written := root.written } := ⟨[], (List.append_nil _).symm, rfl, .refl _⟩
  obtain ⟨⟨writes, logged, stored, perm⟩, empty⟩ :=
    Bulk.commitLoop_spec tracks (fun _ _ => ⟨rfl, rfl⟩) looped
  have nothing : bulk.buffered = [] := by
    unfold Bulk.buffered
    rw [List.flatMap_eq_nil_iff]
    intro type _
    rw [Bulk.pending, (empty type).upserts, (empty type).deletes]
    rfl
  rw [nothing, List.append_nil] at perm
  exact ⟨writes, perm, logged, stored, rfl, rfl⟩

theorem commitChild_loadRow (distinct : Function.Injective schema.primaryKey)
    (rowsKeyed : RowsKeyed schema root.mDatabase)
    (keyed : ∀ key entry, child.mEntry.lookup key = some (some entry) → entry.key = key)
    (ran : root.commitChild schema child = .ok after) :
    RowsKeyed schema after.mDatabase ∧ loadRow schema after.mDatabase =
      child.getNewestVersion (loadRow schema root.mDatabase) := by
  obtain ⟨writes, perm, -, stored, -, -⟩ := commitChild_writes ran
  have once : writes.NodupKeys := (List.perm_nodupKeys perm).mpr child.mEntry.nodupKeys
  have afterKeyed : RowsKeyed schema after.mDatabase := by
    rw [stored]
    exact applyWrites_keyed rowsKeyed writes
  refine ⟨afterKeyed, funext fun key => ?_⟩
  have own : ∀ write ∈ writes, ∀ entry, write.2 = some entry → entry.key = write.1 := by
    intro write member entry same
    apply keyed write.1 entry
    rw [← same]
    exact AList.mem_lookup_iff.mpr (perm.subset member)
  rw [loadRow_eq distinct afterKeyed, stored,
    applyWrites_lookup distinct root.mDatabase once own,
    List.perm_dlookup key once perm]
  unfold Impl.getNewestVersion AList.lookup
  cases List.dlookup key child.mEntry.entries with
  | none => exact (loadRow_eq distinct rowsKeyed key).symm
  | some record => rfl

end ViiCore.LedgerTxn
