import ViiCore.Ledger.LedgerTxnRoot

/-!
Stacks of finite maps, and how a transaction stands for a level of such a stack.

A level has a whole map and a header: opening a transaction copies those below it, a commit puts
them in the place of the parent's, and a rollback takes them off. A transaction has only records of
what was touched; every call keeps it in step with its level.
-/

namespace ViiCore.LedgerTxn

open ViiCore.FiniteMap
open ViiCore.Ledger (LedgerHeader)

variable {κ ν : Type} [DecidableEq κ]

/-! ### Stacks of maps -/

/-- A whole map and a header, and what a commit stamps: the entries of the keys that were touched,
where the level was opened to do so. -/
structure MapLevel (κ ν : Type) where
  entries : Map κ (LedgerEntry κ ν)
  header : LedgerHeader
  touched : List κ
  stamping : Bool

structure MapStack (κ ν : Type) where
  entries : Map κ (LedgerEntry κ ν)
  header : LedgerHeader
  levels : List (MapLevel κ ν)

namespace MapLevel

variable (level : MapLevel κ ν)

def put (entry : LedgerEntry κ ν) : MapLevel κ ν :=
  { level with
    entries := level.entries.insert entry.key entry
    touched := entry.key :: level.touched }

omit [DecidableEq κ] in
def touch (key : κ) : MapLevel κ ν := { level with touched := key :: level.touched }

def remove (key : κ) : MapLevel κ ν := { level with entries := level.entries.erase key }

theorem put_lookup_self (entry : LedgerEntry κ ν) :
    (level.put entry).entries.lookup entry.key = some entry :=
  AList.lookup_insert _

theorem put_lookup_ne {key : κ} {entry : LedgerEntry κ ν} (different : key ≠ entry.key) :
    (level.put entry).entries.lookup key = level.entries.lookup key :=
  AList.lookup_insert_ne different

theorem remove_lookup_self (key : κ) : (level.remove key).entries.lookup key = none :=
  AList.lookup_erase key _

theorem remove_lookup_ne {key other : κ} (different : other ≠ key) :
    (level.remove key).entries.lookup other = level.entries.lookup other :=
  AList.lookup_erase_ne different

def stamped : Map κ (LedgerEntry κ ν) :=
  mapValues (fun entry =>
    if level.stamping ∧ entry.key ∈ level.touched then
      { entry with lastModifiedLedgerSeq := level.header.ledgerSeq }
    else entry) level.entries

end MapLevel

namespace MapStack

variable (maps : MapStack κ ν)

section

omit [DecidableEq κ]

/-- The map so many levels below the innermost one; the last is that of the root. -/
def entriesAt (depth : Nat) : Map κ (LedgerEntry κ ν) :=
  match maps.levels.drop depth with
  | [] => maps.entries
  | level :: _ => level.entries

def headerAt (depth : Nat) : LedgerHeader :=
  match maps.levels.drop depth with
  | [] => maps.header
  | level :: _ => level.header

def innermost (f : MapLevel κ ν → MapLevel κ ν) : MapStack κ ν :=
  match maps.levels with
  | [] => maps
  | level :: outer => { maps with levels := f level :: outer }

end

def commit : MapStack κ ν :=
  match maps.levels with
  | [] => maps
  | [child] => { entries := child.stamped, header := child.header, levels := [] }
  | child :: parent :: outer =>
      { maps with
        levels :=
          { parent with
            entries := child.stamped
            header := child.header
            touched := child.touched ++ parent.touched } :: outer }

def perform : Request κ ν → MapStack κ ν
  | .openChild stamping =>
      { maps with
        levels := { entries := maps.entriesAt 0, header := maps.headerAt 0, touched := [], stamping } ::
          maps.levels }
  | .create entry => maps.innermost fun level => level.put entry
  | .createOrUpdateWithoutLoading entry => maps.innermost fun level => level.put entry
  | .load key => maps.innermost fun level => level.touch key
  | .loadWithoutRecord _ => maps
  | .modify entry => maps.innermost fun level => level.put entry
  | .deactivate _ => maps
  | .erase key => maps.innermost fun level => level.remove key
  | .eraseWithoutLoading key => maps.innermost fun level => level.remove key
  | .loadHeader => maps
  | .modifyHeader header => maps.innermost fun level => { level with header }
  | .deactivateHeader => maps
  | .commit => maps.commit
  | .rollback descendants => { maps with levels := maps.levels.drop (descendants + 1) }

def run (requests : List (Request κ ν)) : MapStack κ ν := requests.foldl perform maps

end MapStack

/-! ### One level -/

/-- A transaction over a parent stands for a level. Of the entries that there are, the records hold
those that were touched. -/
structure LevelRefines (mParent : View κ ν) (txn : Impl κ ν) (level : MapLevel κ ν) : Prop where
  newest : ∀ key, txn.getNewestVersion mParent key = level.entries.lookup key
  keyed : ∀ key entry, level.entries.lookup key = some entry → entry.key = key
  header : txn.mHeader = level.header
  stamping : txn.mShouldUpdateLastModified = level.stamping
  unsealed : txn.mIsSealed = false
  touched : ∀ key, level.entries.lookup key ≠ none →
    (key ∈ level.touched ↔ txn.mEntry.lookup key ≠ none)

section Levels

variable {mParent : View κ ν} {txn after : Impl κ ν} {level : MapLevel κ ν}

theorem getNewestVersion_recorded {key : κ} {record : Option (LedgerEntry κ ν)}
    (recorded : txn.mEntry.lookup key = some record) : txn.getNewestVersion mParent key = record := by
  unfold Impl.getNewestVersion
  rw [recorded]

theorem getNewestVersion_unrecorded {key : κ} (unrecorded : txn.mEntry.lookup key = none) :
    txn.getNewestVersion mParent key = mParent key := by
  unfold Impl.getNewestVersion
  rw [unrecorded]

theorem getNewestVersion_congr {key : κ} (same : after.mEntry.lookup key = txn.mEntry.lookup key) :
    after.getNewestVersion mParent key = txn.getNewestVersion mParent key := by
  unfold Impl.getNewestVersion
  rw [same]

theorem LevelRefines.handles (refines : LevelRefines mParent txn level) (active : Map κ Handle)
    (activeHeader : Bool) :
    LevelRefines mParent { txn with mActive := active, mActiveHeader := activeHeader } level :=
  ⟨refines.newest, refines.keyed, refines.header, refines.stamping, refines.unsealed,
    refines.touched⟩

theorem LevelRefines.put (refines : LevelRefines mParent txn level) (entry : LedgerEntry κ ν) :
    LevelRefines mParent { txn with mEntry := txn.mEntry.insert entry.key (some entry) }
      (level.put entry) where
  newest key := by
    by_cases same : key = entry.key
    · rw [same, level.put_lookup_self]
      exact getNewestVersion_recorded (AList.lookup_insert _)
    · rw [getNewestVersion_congr (AList.lookup_insert_ne same), level.put_lookup_ne same]
      exact refines.newest key
  keyed key other found := by
    by_cases same : key = entry.key
    · rw [same, level.put_lookup_self] at found
      cases found
      exact same.symm
    · rw [level.put_lookup_ne same] at found
      exact refines.keyed key other found
  header := refines.header
  stamping := refines.stamping
  unsealed := refines.unsealed
  touched key present := by
    by_cases same : key = entry.key
    · subst same
      simp [MapLevel.put]
    · rw [level.put_lookup_ne same] at present
      have before := refines.touched key present
      simpa [MapLevel.put, AList.lookup_insert_ne same, same] using before

/-- A key is taken off, whatever its record becomes, as long as nothing is found then. -/
theorem LevelRefines.remove (refines : LevelRefines mParent txn level) {key : κ}
    {mEntry : EntryMap κ ν} {cons : LedgerTxnConsistency}
    (gone : ({ txn with mEntry := mEntry, mConsistency := cons } : Impl κ ν).getNewestVersion mParent
      key = none)
    (others : ∀ other, other ≠ key → mEntry.lookup other = txn.mEntry.lookup other) :
    LevelRefines mParent { txn with mEntry := mEntry, mConsistency := cons } (level.remove key) where
  newest other := by
    by_cases same : other = key
    · rw [same, level.remove_lookup_self]
      exact gone
    · rw [getNewestVersion_congr (others other same), level.remove_lookup_ne same]
      exact refines.newest other
  keyed other entry found := by
    by_cases same : other = key
    · rw [same, level.remove_lookup_self] at found
      cases found
    · rw [level.remove_lookup_ne same] at found
      exact refines.keyed other entry found
  header := refines.header
  stamping := refines.stamping
  unsealed := refines.unsealed
  touched other present := by
    by_cases same : other = key
    · rw [same] at present
      exact absurd (level.remove_lookup_self key) present
    · rw [level.remove_lookup_ne same] at present
      rw [others other same]
      exact refines.touched other present

theorem LevelRefines.touch (refines : LevelRefines mParent txn level) {key : κ}
    {entry : LedgerEntry κ ν} (found : txn.getNewestVersion mParent key = some entry) :
    LevelRefines mParent { txn with mEntry := txn.mEntry.insert key (some entry) }
      (level.touch key) where
  newest other := by
    by_cases same : other = key
    · subst same
      rw [getNewestVersion_recorded (AList.lookup_insert _), ← found]
      exact refines.newest other
    · rw [getNewestVersion_congr (AList.lookup_insert_ne same)]
      exact refines.newest other
  keyed := refines.keyed
  header := refines.header
  stamping := refines.stamping
  unsealed := refines.unsealed
  touched other present := by
    by_cases same : other = key
    · subst same
      simp [MapLevel.touch]
    · have before := refines.touched other present
      simpa [MapLevel.touch, AList.lookup_insert_ne same, same] using before

theorem LevelRefines.touch_absent (refines : LevelRefines mParent txn level) {key : κ}
    (absent : txn.getNewestVersion mParent key = none) : LevelRefines mParent txn (level.touch key) where
  newest := refines.newest
  keyed := refines.keyed
  header := refines.header
  stamping := refines.stamping
  unsealed := refines.unsealed
  touched other present := by
    have different : other ≠ key := by
      intro same
      rw [same] at present
      exact present ((refines.newest key).symm.trans absent)
    have before := refines.touched other present
    simpa [MapLevel.touch, different] using before

theorem load_refines {key : κ} (refines : LevelRefines mParent txn level)
    (ran : txn.load mParent key = .ok after) : LevelRefines mParent after (level.touch key) := by
  rcases load_ok ran with ⟨absent, rfl⟩ | ⟨entry, found, rfl⟩
  · exact refines.touch_absent absent
  · exact (refines.touch found).handles _ _

theorem forget_lookup (mEntry : EntryMap κ ν) (key other : κ) :
    (Impl.forget mParent mEntry key).lookup other =
      if other = key then (if (mParent key).isNone then none else some none)
      else mEntry.lookup other := by
  unfold Impl.forget
  by_cases same : other = key
  · subst same
    rw [if_pos rfl]
    split
    · exact AList.lookup_erase ..
    · exact AList.lookup_insert _
  · rw [if_neg same]
    split
    · exact AList.lookup_erase_ne same
    · exact AList.lookup_insert_ne same

theorem erase_refines {key : κ} (refines : LevelRefines mParent txn level)
    (ran : txn.erase mParent key = .ok after) : LevelRefines mParent after (level.remove key) := by
  obtain ⟨-, rfl⟩ := erase_ok ran
  have removed : LevelRefines mParent
      { txn with mEntry := Impl.forget mParent txn.mEntry key } (level.remove key) := by
    apply refines.remove
    · unfold Impl.getNewestVersion
      rw [forget_lookup, if_pos rfl]
      cases mParent key with
      | none => rfl
      | some entry => rfl
    · intro other different
      rw [forget_lookup, if_neg different]
  exact removed.handles _ _

theorem eraseWithoutLoading_refines {key : κ} (refines : LevelRefines mParent txn level)
    (ran : txn.eraseWithoutLoading key = .ok after) :
    LevelRefines mParent after (level.remove key) := by
  rw [eraseWithoutLoading_ok ran]
  have removed : LevelRefines mParent
      { txn with mEntry := txn.mEntry.insert key none, mConsistency := .EXTRA_DELETES }
      (level.remove key) := by
    apply refines.remove
    · exact getNewestVersion_recorded (AList.lookup_insert _)
    · intro other different
      exact AList.lookup_insert_ne different
  exact removed.handles _ _

theorem opened_refines {entries : Map κ (LedgerEntry κ ν)} (header : LedgerHeader) (stamping : Bool)
    (same : ∀ key, mParent key = entries.lookup key)
    (keyed : ∀ key entry, entries.lookup key = some entry → entry.key = key) :
    LevelRefines mParent
      { mEntry := ∅, mActive := ∅, mHeader := header, mActiveHeader := false,
        mShouldUpdateLastModified := stamping, mIsSealed := false, mConsistency := .EXACT }
      { entries, header, touched := [], stamping } where
  newest := same
  keyed := keyed
  header := rfl
  stamping := rfl
  unsealed := rfl
  touched key present := by simp

/-! ### Commits -/

theorem LevelRefines.sealed_mEntry (refines : LevelRefines mParent txn level) (key : κ) :
    txn.sealed.mEntry.lookup key = (txn.mEntry.lookup key).map (Option.map txn.stamp) := by
  unfold Impl.sealed
  rw [refines.unsealed]
  exact lookup_mapValues _ _ _

theorem LevelRefines.stamped_lookup (refines : LevelRefines mParent txn level) (key : κ) :
    txn.sealed.getNewestVersion mParent key = level.stamped.lookup key := by
  have found := refines.newest key
  unfold MapLevel.stamped
  rw [lookup_mapValues, ← found]
  cases recorded : txn.mEntry.lookup key with
  | none =>
      have unsealed : txn.sealed.mEntry.lookup key = none := by
        rw [refines.sealed_mEntry, recorded]
        rfl
      rw [getNewestVersion_unrecorded unsealed, getNewestVersion_unrecorded recorded]
      rw [getNewestVersion_unrecorded recorded] at found
      cases parent : mParent key with
      | none => rfl
      | some entry =>
          rw [parent] at found
          -- An entry without a record was not touched.
          have untouched : key ∉ level.touched := by
            rw [refines.touched key (by rw [← found]; simp), recorded]
            simp
          have own := refines.keyed key entry found.symm
          rw [Option.map_some, if_neg]
          rw [own]
          exact fun both => untouched both.2
  | some record =>
      have stamped : txn.sealed.mEntry.lookup key = some (record.map txn.stamp) := by
        rw [refines.sealed_mEntry, recorded]
        rfl
      rw [getNewestVersion_recorded stamped, getNewestVersion_recorded recorded]
      rw [getNewestVersion_recorded recorded] at found
      cases record with
      | none => rfl
      | some entry =>
          have touched : key ∈ level.touched := by
            rw [refines.touched key (by rw [← found]; simp), recorded]
            simp
          have own := refines.keyed key entry found.symm
          have condition : (level.stamping = true ∧ entry.key ∈ level.touched) ↔
              level.stamping = true := by
            rw [own]
            exact and_iff_left touched
          simp only [Option.map_some, Impl.stamp, refines.stamping, refines.header, condition]

theorem LevelRefines.stamped_keyed (refines : LevelRefines mParent txn level) (key : κ)
    (entry : LedgerEntry κ ν) (found : level.stamped.lookup key = some entry) : entry.key = key := by
  unfold MapLevel.stamped at found
  rw [lookup_mapValues] at found
  obtain ⟨before, present, same⟩ := Option.map_eq_some_iff.mp found
  rw [← refines.keyed key before present, ← same]
  split <;> rfl

variable (mParent) in
theorem commitEntries_lookup (mEntry : EntryMap κ ν) {entries : List (Write κ ν)}
    (once : entries.NodupKeys) (key : κ) :
    (entries.foldl (Impl.commitEntry mParent) mEntry).lookup key =
      match entries.dlookup key with
      | some (some entry) => some (some entry)
      | some none => if (mParent key).isNone then none else some none
      | none => mEntry.lookup key := by
  induction entries generalizing mEntry with
  | nil => rfl
  | cons kv entries ih =>
      obtain ⟨absent, onceLater⟩ := List.nodupKeys_cons.mp once
      rw [List.foldl_cons, ih _ onceLater]
      obtain ⟨committed, record⟩ := kv
      by_cases same : key = committed
      · subst same
        have alone : entries.dlookup key = none := List.dlookup_eq_none.mpr absent
        rw [alone, List.dlookup_cons_eq]
        cases record with
        | none =>
            change (Impl.forget mParent mEntry key).lookup key = _
            rw [forget_lookup, if_pos rfl]
        | some entry => exact AList.lookup_insert _
      · rw [List.dlookup_cons_ne _ (⟨committed, record⟩ : Write κ ν) same]
        have kept : (Impl.commitEntry mParent mEntry ⟨committed, record⟩).lookup key =
            mEntry.lookup key := by
          cases record with
          | none =>
              change (Impl.forget mParent mEntry committed).lookup key = _
              rw [forget_lookup, if_neg same]
          | some entry => exact AList.lookup_insert_ne same
        rw [kept]

theorem commitChild_newest (parent child : Impl κ ν) (key : κ) :
    (parent.commitChild mParent child).getNewestVersion mParent key =
      child.getNewestVersion (parent.getNewestVersion mParent) key := by
  have records := commitEntries_lookup mParent parent.mEntry child.mEntry.nodupKeys key
  cases recorded : child.mEntry.lookup key with
  | none =>
      have unrecorded : child.mEntry.entries.dlookup key = none := recorded
      rw [unrecorded] at records
      rw [getNewestVersion_congr records, getNewestVersion_unrecorded recorded]
  | some record =>
      have committed : child.mEntry.entries.dlookup key = some record := recorded
      rw [committed] at records
      rw [getNewestVersion_recorded recorded]
      cases record with
      | some entry => exact getNewestVersion_recorded records
      | none =>
          cases absent : mParent key with
          | none =>
              rw [absent] at records
              exact (getNewestVersion_unrecorded records).trans absent
          | some entry =>
              rw [absent] at records
              exact getNewestVersion_recorded records

theorem commit_refines {parent child : Impl κ ν} {inner : MapLevel κ ν}
    (refines : LevelRefines mParent parent level)
    (childRefines : LevelRefines (parent.getNewestVersion mParent) child inner) :
    LevelRefines mParent (parent.commitChild mParent child.sealed)
      { level with
        entries := inner.stamped
        header := inner.header
        touched := inner.touched ++ level.touched } where
  newest key := by
    rw [commitChild_newest]
    exact childRefines.stamped_lookup key
  keyed := childRefines.stamped_keyed
  header := by
    change child.sealed.mHeader = inner.header
    unfold Impl.sealed
    split <;> exact childRefines.header
  stamping := refines.stamping
  unsealed := refines.unsealed
  touched key present := by
    have there : inner.entries.lookup key ≠ none := by
      intro absent
      apply present
      change (mapValues _ inner.entries).lookup key = none
      rw [lookup_mapValues, absent]
      rfl
    have innerTouched := childRefines.touched key there
    have found := childRefines.newest key
    have records := commitEntries_lookup mParent parent.mEntry child.sealed.mEntry.nodupKeys key
    have stamped := childRefines.sealed_mEntry key
    rw [List.mem_append, innerTouched]
    change _ ↔ (child.sealed.mEntry.entries.foldl (Impl.commitEntry mParent) parent.mEntry).lookup
      key ≠ none
    rw [records]
    cases recorded : child.mEntry.lookup key with
    | none =>
        rw [recorded] at stamped
        have unrecorded : child.sealed.mEntry.entries.dlookup key = none := stamped
        rw [unrecorded]
        -- The child found what its parent had.
        rw [getNewestVersion_unrecorded recorded, refines.newest] at found
        have outer := refines.touched key (by rw [found]; exact there)
        rw [outer]
        simp
    | some record =>
        rw [recorded] at stamped
        cases record with
        | none =>
            rw [getNewestVersion_recorded recorded] at found
            exact absurd found.symm there
        | some entry =>
            have kept : child.sealed.mEntry.entries.dlookup key = some (some (child.stamp entry)) :=
              stamped
            rw [kept]
            simp

end Levels

end ViiCore.LedgerTxn
