import ViiCore.Ledger.LedgerTxnRoot

/-!
The cache of the root is not seen: whatever is asked of a root whose cache holds nothing but what
the database has, the answer is that of the database, and only the cache changes.
-/

namespace ViiCore.LedgerTxn

open ViiCore.FiniteMap

variable {κ ν ρ σ : Type} [DecidableEq κ] [DecidableEq ρ] [DecidableEq σ]

variable (schema : Schema κ ρ σ) (rand : Nat → Draws)

/-- What is found at a level, given the levels from it outwards. -/
def viewOf (rows : Map ρ (LedgerEntry κ ν)) : List (Impl κ ν) → View κ ν
  | [] => loadRow schema rows
  | txn :: outer => txn.getNewestVersion (viewOf rows outer)

def Coherent (root : LedgerTxnRoot κ ν ρ) : Prop :=
  root.mEntryCache.Holds fun key cached => cached = loadRow schema root.mDatabase key

/-- A root that was asked: only its cache may have changed. -/
structure Asked (before after : LedgerTxnRoot κ ν ρ) : Prop where
  database : after.mDatabase = before.mDatabase
  header : after.mHeader = before.mHeader
  written : after.written = before.written
  coherent : Coherent schema after

/-- A computation that asks the root, where it does not throw, has the result of one that does
not. -/
def Agrees {α : Type} (asking : Asking κ ν ρ α) (root : LedgerTxnRoot κ ν ρ)
    (value : Except Fault α) : Prop :=
  ∀ result after, asking root = .ok (result, after) → value = .ok result ∧ Asked schema root after

theorem getNewestVersion_eq (root : LedgerTxnRoot κ ν ρ) (key : κ) :
    LedgerTxnRoot.getNewestVersion schema rand key root =
      match root.mEntryCache.get key with
      | some (cached, mEntryCache) => .ok (cached, { root with mEntryCache })
      | none =>
          let entry := loadRow schema root.mDatabase key
          .ok (entry, { root with
            mEntryCache := root.mEntryCache.put (rand root.mEntryCache.mGeneration.toNat) key entry }) := by
  change (match root.mEntryCache.get key with
      | some (cached, mEntryCache) => (do set { root with mEntryCache }; return cached : Asking κ ν ρ _)
      | none => do
          set { root with
            mEntryCache := root.mEntryCache.put (rand root.mEntryCache.mGeneration.toNat) key
              (loadRow schema root.mDatabase key) }
          return loadRow schema root.mDatabase key) root = _
  cases root.mEntryCache.get key with
  | none => rfl
  | some found => rfl

variable {schema} {root : LedgerTxnRoot κ ν ρ}

theorem Asked.trans {middle after : LedgerTxnRoot κ ν ρ} (first : Asked schema root middle)
    (second : Asked schema middle after) : Asked schema root after where
  database := second.database.trans first.database
  header := second.header.trans first.header
  written := second.written.trans first.written
  coherent := second.coherent

theorem Coherent.asked (coherent : Coherent schema root) : Asked schema root root :=
  ⟨rfl, rfl, rfl, coherent⟩

theorem getNewestVersion_ok (coherent : Coherent schema root) (key : κ) :
    ∃ after, LedgerTxnRoot.getNewestVersion schema rand key root =
        .ok (loadRow schema root.mDatabase key, after) ∧ Asked schema root after := by
  rw [getNewestVersion_eq]
  cases cached : root.mEntryCache.get key with
  | none => exact ⟨_, rfl, rfl, rfl, rfl, RandomEvictionCache.put_holds coherent _ rfl⟩
  | some found =>
      obtain ⟨entry, mEntryCache⟩ := found
      obtain ⟨same, held⟩ := RandomEvictionCache.get_holds coherent cached
      rw [← same]
      exact ⟨_, rfl, rfl, rfl, rfl, held⟩

theorem ask_ok (coherent : Coherent schema root) (levels : List (Impl κ ν)) (key : κ) :
    ∃ after, ask schema rand levels key root = .ok (viewOf schema root.mDatabase levels key, after) ∧
      Asked schema root after := by
  induction levels with
  | nil => exact getNewestVersion_ok rand coherent key
  | cons txn outer ih =>
      unfold ask viewOf Impl.getNewestVersion
      cases txn.mEntry.lookup key with
      | none => exact ih
      | some recorded => exact ⟨root, rfl, coherent.asked⟩

variable {α β : Type} {rand}

theorem Agrees.of_except (coherent : Coherent schema root) (value : Except Fault α) :
    Agrees schema (liftM value : Asking κ ν ρ α) root value := by
  intro result after ran
  cases value with
  | error fault => cases ran
  | ok answer =>
      cases ran
      exact ⟨rfl, coherent.asked⟩

theorem Agrees.pure (coherent : Coherent schema root) (answer : α) :
    Agrees schema (Pure.pure answer : Asking κ ν ρ α) root (.ok answer) :=
  Agrees.of_except coherent (.ok answer)

theorem Agrees.bind {first : Asking κ ν ρ α} {next : α → Asking κ ν ρ β} {value : Except Fault α}
    {continued : α → Except Fault β} (agrees : Agrees schema first root value)
    (later : ∀ answer middle, Asked schema root middle → Agrees schema (next answer) middle
      (continued answer)) :
    Agrees schema (first >>= next) root (value >>= continued) := by
  intro result after ran
  obtain ⟨⟨answer, middle⟩, start, ran⟩ := except_bind_ok.mp ran
  obtain ⟨same, asked⟩ := agrees answer middle start
  obtain ⟨rest, askedLater⟩ := later answer middle asked result after ran
  rw [same]
  exact ⟨rest, asked.trans askedLater⟩

theorem Agrees.known {first : Asking κ ν ρ α} {next : α → Asking κ ν ρ β} {answer : α}
    {value : Except Fault β} (agrees : Agrees schema first root (.ok answer))
    (later : ∀ middle, Asked schema root middle → Agrees schema (next answer) middle value) :
    Agrees schema (first >>= next) root value := by
  intro result after ran
  obtain ⟨⟨other, middle⟩, start, ran⟩ := except_bind_ok.mp ran
  obtain ⟨same, asked⟩ := agrees other middle start
  cases same
  obtain ⟨rest, askedLater⟩ := later middle asked result after ran
  exact ⟨rest, asked.trans askedLater⟩

theorem ask_agrees (coherent : Coherent schema root) (levels : List (Impl κ ν)) (key : κ) :
    Agrees schema (ask schema rand levels key) root
      (.ok (viewOf schema root.mDatabase levels key)) := by
  intro result after ran
  obtain ⟨middle, answered, asked⟩ := ask_ok rand coherent levels key
  rw [answered] at ran
  cases ran
  exact ⟨rfl, asked⟩

variable (coherent : Coherent schema root) {outer : List (Impl κ ν)} {txn : Impl κ ν}

include coherent

omit coherent in
theorem viewOf_cons (mDatabase : Map ρ (LedgerEntry κ ν)) (key : κ) :
    viewOf schema mDatabase (txn :: outer) key =
      txn.getNewestVersion (viewOf schema mDatabase outer) key := rfl

theorem create_agrees (entry : LedgerEntry κ ν) :
    Agrees schema (Asking.create schema rand outer txn entry) root
      (txn.create (viewOf schema root.mDatabase outer) entry) := by
  apply Agrees.bind (Agrees.of_except coherent _)
  intro _ middle asked
  rw [← asked.database]
  apply (ask_agrees asked.coherent _ _).known
  intro last askedLast
  change Agrees schema (if (viewOf schema middle.mDatabase (txn :: outer) entry.key).isSome then _
    else _) last (if (viewOf schema middle.mDatabase (txn :: outer) entry.key).isSome then _ else _)
  split
  · exact Agrees.of_except askedLast.coherent (.error _)
  · exact Agrees.pure askedLast.coherent _

theorem forget_agrees (mEntry : EntryMap κ ν) (key : κ) :
    Agrees schema (Asking.forget schema rand outer mEntry key) root
      (.ok (Impl.forget (viewOf schema root.mDatabase outer) mEntry key)) := by
  apply (ask_agrees coherent _ _).known
  intro last asked
  unfold Impl.forget
  split
  · exact Agrees.pure asked.coherent _
  · exact Agrees.pure asked.coherent _

theorem erase_agrees (key : κ) :
    Agrees schema (Asking.erase schema rand outer txn key) root
      (txn.erase (viewOf schema root.mDatabase outer) key) := by
  apply Agrees.bind (Agrees.of_except coherent _)
  intro _ middle asked
  rw [← asked.database]
  apply (ask_agrees asked.coherent _ _).known
  intro last askedLast
  change Agrees schema (if (viewOf schema middle.mDatabase (txn :: outer) key).isNone then _
    else _) last (if (viewOf schema middle.mDatabase (txn :: outer) key).isNone then _ else _)
  split
  · exact Agrees.of_except askedLast.coherent (.error _)
  · rw [← askedLast.database]
    apply (forget_agrees askedLast.coherent txn.mEntry key).known
    intro final askedFinal
    exact Agrees.pure askedFinal.coherent _

theorem load_agrees (key : κ) :
    Agrees schema (Asking.load schema rand outer txn key) root
      (txn.load (viewOf schema root.mDatabase outer) key) := by
  apply Agrees.bind (Agrees.of_except coherent _)
  intro _ middle asked
  rw [← asked.database]
  split
  · exact Agrees.of_except asked.coherent (.error _)
  · apply (ask_agrees asked.coherent _ _).known
    intro last askedLast
    rw [viewOf_cons]
    cases txn.getNewestVersion (viewOf schema middle.mDatabase outer) key with
    | none => exact Agrees.pure askedLast.coherent _
    | some newest => exact Agrees.pure askedLast.coherent _

theorem loadWithoutRecord_agrees (key : κ) :
    Agrees schema (Asking.loadWithoutRecord schema rand outer txn key) root
      (txn.loadWithoutRecord (viewOf schema root.mDatabase outer) key) := by
  apply Agrees.bind (Agrees.of_except coherent _)
  intro _ middle asked
  rw [← asked.database]
  split
  · exact Agrees.of_except asked.coherent (.error _)
  · apply (ask_agrees asked.coherent _ _).known
    intro last askedLast
    rw [viewOf_cons]
    cases txn.getNewestVersion (viewOf schema middle.mDatabase outer) key with
    | none => exact Agrees.pure askedLast.coherent _
    | some newest => exact Agrees.pure askedLast.coherent _

theorem commitEntry_agrees (mEntry : EntryMap κ ν) (kv : Write κ ν) :
    Agrees schema (Asking.commitEntry schema rand outer mEntry kv) root
      (.ok (Impl.commitEntry (viewOf schema root.mDatabase outer) mEntry kv)) := by
  unfold Asking.commitEntry Impl.commitEntry
  cases kv.2 with
  | some entry => exact Agrees.pure coherent _
  | none => exact forget_agrees coherent mEntry kv.1

theorem commitEntries_agrees (entries : List (Write κ ν)) (mEntry : EntryMap κ ν) :
    Agrees schema (entries.foldlM (Asking.commitEntry schema rand outer) mEntry) root
      (.ok (entries.foldl (Impl.commitEntry (viewOf schema root.mDatabase outer)) mEntry)) := by
  induction entries generalizing mEntry root with
  | nil => exact Agrees.pure coherent mEntry
  | cons kv entries ih =>
      rw [List.foldlM_cons]
      apply (commitEntry_agrees coherent mEntry kv).known
      intro middle asked
      rw [← asked.database]
      exact ih asked.coherent _

theorem commitChild_agrees (child : Impl κ ν) :
    Agrees schema (Asking.commitChild schema rand outer txn child) root
      (.ok (txn.commitChild (viewOf schema root.mDatabase outer) child)) := by
  apply (commitEntries_agrees coherent child.mEntry.entries txn.mEntry).known
  intro last asked
  exact Agrees.pure asked.coherent _

end ViiCore.LedgerTxn
