import Mathlib.Data.List.Chain
import ViiCore.Catchup.VerifyLedgerChainWork
import ViiCore.Library.Execution

/-!
What a successful verification of a chain of ledger headers stands for.

A file that verifies is linked and agrees with what was left by the newer file. Two things are not
looked at: whether the oldest file has the first ledger of the range, and whether a file that
begins with ledger 1, and so leaves the number 0, is the oldest.
-/

namespace ViiCore.Catchup

/-! ### What a verified file is like -/

section Verified

variable {Hash Rest : Type} [DecidableEq Hash] (task : Task Hash Rest)

def readEntries (last : UInt32) : List (LedgerHeaderHistoryEntry Hash Rest) →
    List (LedgerHeaderHistoryEntry Hash Rest)
  | [] => []
  | entry :: rest =>
      if entry.header.ledgerSeq = last then [entry] else entry :: readEntries last rest

structure Links (earlier later : LedgerHeaderHistoryEntry Hash Rest) : Prop where
  seq : later.header.ledgerSeq = earlier.header.ledgerSeq + 1
  hash : later.header.previousLedgerHash = earlier.hash

structure Genuine (entry : LedgerHeaderHistoryEntry Hash Rest) : Prop where
  hash : entry.hash = task.hashOf entry.header
  closed : entry.header.ledgerSeq = task.mLastClosed.1 →
    task.hashOf entry.header = task.mLastClosed.2
  next : entry.header.ledgerSeq = task.mLastClosed.1 + 1 →
    entry.header.previousLedgerHash = task.mLastClosed.2

variable {task}

theorem assertThat_ok {holds : Bool} {what : String} {done : Unit}
    (ok : assertThat holds what = .ok done) : holds = true := by
  cases holds with
  | true => rfl
  | false => cases ok

theorem verifyLedgerHistoryEntry_ok {entry : LedgerHeaderHistoryEntry Hash Rest} {done : Unit}
    (ok : verifyLedgerHistoryEntry task entry = .ok done) :
    entry.hash = task.hashOf entry.header := by
  unfold verifyLedgerHistoryEntry at ok
  split at ok
  · cases ok
  · rename_i same
    exact (not_not.mp same).symm

theorem verifyLedgerHistoryLink_ok {prev : Hash} {entry : LedgerHeaderHistoryEntry Hash Rest}
    {done : Unit} (ok : verifyLedgerHistoryLink task prev entry = .ok done) :
    entry.hash = task.hashOf entry.header ∧ entry.header.previousLedgerHash = prev := by
  obtain ⟨_, hashed, linked⟩ := except_bind_ok.mp ok
  split at linked
  · cases linked
  · rename_i same
    exact ⟨verifyLedgerHistoryEntry_ok hashed, (not_not.mp same).symm⟩

theorem verifyLastClosed_ok {entry : LedgerHeaderHistoryEntry Hash Rest} {done : Unit}
    (ok : verifyLastClosed task entry = .ok done)
    (hashed : entry.hash = task.hashOf entry.header) : Genuine task entry := by
  unfold verifyLastClosed at ok
  split at ok
  · rename_i closed
    split at ok
    · cases ok
    · rename_i same
      refine ⟨hashed, fun _ => not_not.mp same, ?_⟩
      intro next
      rw [closed] at next
      exact absurd (UInt32.left_eq_add.mp next) (by decide)
  · rename_i notClosed
    split at ok
    · exact ⟨hashed, fun closed => absurd closed notClosed,
        fun _ => (verifyLedgerHistoryLink_ok ok).2⟩
    · rename_i notNext
      exact ⟨hashed, fun closed => absurd closed notClosed, fun next => absurd next notNext⟩

theorem verifyEntry_first {ahead : LedgerNumHashPair Hash}
    {entry : LedgerHeaderHistoryEntry Hash Rest} {cursor : Cursor Hash Rest}
    (ok : verifyEntry task ⟨ahead, none⟩ entry = .ok cursor) :
    Genuine task entry ∧
      cursor = ⟨(entry.header.ledgerSeq - 1, some entry.header.previousLedgerHash), some entry⟩ := by
  unfold verifyEntry at ok
  split at ok
  · cases ok
  · obtain ⟨_, closed, ok⟩ := except_bind_ok.mp ok
    obtain ⟨_, hashed, ok⟩ := except_bind_ok.mp ok
    cases ok
    exact ⟨verifyLastClosed_ok closed (verifyLedgerHistoryEntry_ok hashed), rfl⟩

theorem verifyEntry_next {ahead : LedgerNumHashPair Hash}
    {prev entry : LedgerHeaderHistoryEntry Hash Rest} {cursor : Cursor Hash Rest}
    (ok : verifyEntry task ⟨ahead, some prev⟩ entry = .ok cursor) :
    Genuine task entry ∧ Links prev entry ∧ cursor = ⟨ahead, some entry⟩ := by
  unfold verifyEntry at ok
  split at ok
  · cases ok
  · obtain ⟨_, closed, ok⟩ := except_bind_ok.mp ok
    dsimp only at ok
    split at ok
    · cases ok
    split at ok
    · cases ok
    · rename_i notBelow notAbove
      obtain ⟨_, linked, ok⟩ := except_bind_ok.mp ok
      cases ok
      have facts := verifyLedgerHistoryLink_ok linked
      refine ⟨verifyLastClosed_ok closed facts.1, ⟨?_, facts.2⟩, rfl⟩
      exact UInt32.le_antisymm (UInt32.not_lt.mp notAbove) (UInt32.not_lt.mp notBelow)

theorem verifyEntries_next {malformed : Bool} {ahead : LedgerNumHashPair Hash}
    {entries : List (LedgerHeaderHistoryEntry Hash Rest)}
    {prev : LedgerHeaderHistoryEntry Hash Rest} {cursor : Cursor Hash Rest}
    (ok : verifyEntries task malformed entries ⟨ahead, some prev⟩ = .ok cursor) :
    (∀ entry ∈ readEntries task.mRange.mLast entries, Genuine task entry) ∧
      (prev :: readEntries task.mRange.mLast entries).IsChain Links ∧
      cursor = ⟨ahead, (prev :: readEntries task.mRange.mLast entries).getLast?⟩ := by
  induction entries generalizing prev with
  | nil =>
      unfold verifyEntries at ok
      split at ok
      · cases ok
      · cases ok
        exact ⟨(fun _ member => by cases member), .singleton prev, rfl⟩
  | cons entry rest ih =>
      obtain ⟨middle, first, ok⟩ := except_bind_ok.mp ok
      obtain ⟨genuine, links, rfl⟩ := verifyEntry_next first
      unfold readEntries
      split at ok
      · rename_i last
        cases ok
        rw [if_pos last]
        refine ⟨?_, .cons_cons links (.singleton entry), rfl⟩
        intro other member
        rw [List.mem_singleton.mp member]
        exact genuine
      · rename_i inside
        obtain ⟨genuineRest, chain, same⟩ := ih ok
        rw [if_neg inside]
        refine ⟨?_, .cons_cons links chain, ?_⟩
        · intro other member
          rcases List.mem_cons.mp member with rfl | later
          · exact genuine
          · exact genuineRest other later
        · rw [same, List.getLast?_cons_cons]

omit [DecidableEq Hash] in
theorem readEntries_last (last : UInt32) (entries : List (LedgerHeaderHistoryEntry Hash Rest)) :
    ∀ entry ∈ (readEntries last entries).dropLast, entry.header.ledgerSeq ≠ last := by
  induction entries with
  | nil =>
      intro _ member
      cases member
  | cons head rest ih =>
      unfold readEntries
      split
      · intro _ member
        cases member
      · rename_i inside
        cases tail : readEntries last rest with
        | nil =>
            intro _ member
            cases member
        | cons second others =>
            rw [tail] at ih
            intro entry member
            rw [List.dropLast_cons_cons] at member
            rcases List.mem_cons.mp member with rfl | later
            · exact inside
            · exact ih entry later

variable (task) in
def entriesOf (checkpoint : UInt32) : List (LedgerHeaderHistoryEntry Hash Rest) :=
  readEntries task.mRange.mLast
    (((task.mDownloadDir checkpoint).map HeaderFile.entries).getD [])

variable (task) in
/-- A file that verifies against `ahead`, and what it leaves to be verified. -/
structure FileVerified (ahead next : LedgerNumHashPair Hash)
    (entries : List (LedgerHeaderHistoryEntry Hash Rest)) : Prop where
  genuine : ∀ entry ∈ entries, Genuine task entry
  linked : entries.IsChain Links
  once : ∀ entry ∈ entries.dropLast, entry.header.ledgerSeq ≠ task.mRange.mLast
  head : ∃ first rest, entries = first :: rest ∧
    next = (first.header.ledgerSeq - 1, some first.header.previousLedgerHash)
  last : ∃ last, entries.getLast? = some last ∧
    (last.header.ledgerSeq = task.mRange.mLast ∧ ahead.1 = 0 ∧
        (∀ hash, task.mTrustedEndLedger.2 = some hash → last.hash = hash) ∨
      last.header.ledgerSeq ≠ task.mRange.mLast ∧ ahead.1 ≠ 0 ∧
        last.header.ledgerSeq = ahead.1 ∧ ahead.2 = some last.hash)

theorem verifyLastLedgerInCheckpoint_ok {ledger : LedgerHeaderHistoryEntry Hash Rest}
    {ahead : LedgerNumHashPair Hash} {done : Unit}
    (ok : verifyLastLedgerInCheckpoint ledger ahead = .ok done) :
    ledger.header.ledgerSeq = ahead.1 ∧ ∀ hash, ahead.2 = some hash → ledger.hash = hash := by
  obtain ⟨_, numbered, hashed⟩ := except_bind_ok.mp ok
  refine ⟨of_decide_eq_true (assertThat_ok numbered), ?_⟩
  intro hash known
  rw [known] at hashed
  dsimp only at hashed
  split at hashed
  · cases hashed
  · rename_i same
    exact not_not.mp same

omit [DecidableEq Hash] in
theorem aheadOf_ok {last : UInt32} {ahead next : LedgerNumHashPair Hash}
    (ok : aheadOf task last ahead = .ok next) :
    last = task.mRange.mLast ∧ ahead.1 = 0 ∧ next = task.mTrustedEndLedger ∨
      last ≠ task.mRange.mLast ∧ ahead.1 ≠ 0 ∧ next = ahead ∧ ∃ hash, ahead.2 = some hash := by
  unfold aheadOf at ok
  split at ok
  · rename_i isLast
    obtain ⟨_, unverified, ok⟩ := except_bind_ok.mp ok
    cases ok
    exact Or.inl ⟨isLast, of_decide_eq_true (assertThat_ok unverified), rfl⟩
  · rename_i notLast
    obtain ⟨_, known, ok⟩ := except_bind_ok.mp ok
    obtain ⟨_, nonzero, ok⟩ := except_bind_ok.mp ok
    cases ok
    exact Or.inr ⟨notLast, of_decide_eq_true (assertThat_ok nonzero), rfl,
      Option.isSome_iff_exists.mp (assertThat_ok known)⟩

variable [Inhabited Hash] [Inhabited Rest]

theorem verifyHistoryOfSingleCheckpoint_ok {work verified : VerifyLedgerChainWork Hash Rest}
    (ok : verifyHistoryOfSingleCheckpoint task work = .ok verified) :
    verified.mCurrCheckpoint = work.mCurrCheckpoint ∧
      FileVerified task work.mVerifiedAhead verified.mVerifiedAhead
        (entriesOf task work.mCurrCheckpoint) := by
  unfold verifyHistoryOfSingleCheckpoint at ok
  unfold entriesOf
  cases found : task.mDownloadDir work.mCurrCheckpoint with
  | none =>
      rw [found] at ok
      cases ok
  | some file =>
      rw [found] at ok
      obtain ⟨cursor, looped, ok⟩ := except_bind_ok.mp ok
      dsimp only at ok
      split at ok
      · cases ok
      obtain ⟨next, aheadIs, ok⟩ := except_bind_ok.mp ok
      obtain ⟨_, agrees, ok⟩ := except_bind_ok.mp ok
      cases ok
      refine ⟨rfl, ?_⟩
      change FileVerified task work.mVerifiedAhead cursor.mVerifiedAhead
        (readEntries task.mRange.mLast file.entries)
      have agreed := verifyLastLedgerInCheckpoint_ok agrees
      have expected := aheadOf_ok aheadIs
      cases entries : file.entries with
      | nil =>
          -- The default entry has the number 0, which no file can end with.
          rw [entries] at looped
          unfold verifyEntries at looped
          split at looped
          · cases looped
          · cases looped
            rcases expected with ⟨isLast, _, _⟩ | ⟨_, nonzero, rfl, _⟩
            · have positive := task.mRange.positive
              have ordered := task.mRange.ordered
              rw [← isLast] at ordered
              exact absurd (UInt32.lt_of_lt_of_le positive ordered) (UInt32.lt_irrefl 0)
            · exact absurd agreed.1.symm nonzero
      | cons first rest =>
          rw [entries] at looped
          obtain ⟨middle, started, looped⟩ := except_bind_ok.mp looped
          obtain ⟨genuine, rfl⟩ := verifyEntry_first started
          have once := readEntries_last task.mRange.mLast (first :: rest)
          have read : ∃ others, readEntries task.mRange.mLast (first :: rest) = first :: others ∧
              (∀ entry ∈ others, Genuine task entry) ∧ (first :: others).IsChain Links ∧
              cursor = ⟨(first.header.ledgerSeq - 1, some first.header.previousLedgerHash),
                (first :: others).getLast?⟩ := by
            unfold readEntries
            split at looped
            · rename_i isLast
              cases looped
              rw [if_pos isLast]
              exact ⟨[], rfl, (fun _ member => by cases member), .singleton first, rfl⟩
            · rename_i inside
              have later := verifyEntries_next looped
              rw [if_neg inside]
              exact ⟨_, rfl, later.1, later.2.1, later.2.2⟩
          obtain ⟨others, same, genuineRest, linked, rfl⟩ := read
          rw [same] at once ⊢
          obtain ⟨last, isLast⟩ : ∃ last, (first :: others).getLast? = some last :=
            ⟨_, List.getLast?_eq_some_getLast (List.cons_ne_nil first others)⟩
          rw [isLast] at agreed expected
          refine ⟨?_, linked, once, ⟨first, others, rfl, rfl⟩, last, isLast, ?_⟩
          · intro entry member
            rcases List.mem_cons.mp member with rfl | later
            · exact genuine
            · exact genuineRest entry later
          · rcases expected with ⟨reached, zero, rfl⟩ | ⟨before, nonzero, rfl, hash, known⟩
            · exact Or.inl ⟨reached, zero, agreed.2⟩
            · refine Or.inr ⟨before, nonzero, agreed.1, ?_⟩
              rw [known, ← agreed.2 hash known]
              rfl

end Verified

/-! ### The files of a range -/

section Chain

variable {Hash Rest : Type} (task : Task Hash Rest)

def checkpointAt (index : Nat) : UInt32 :=
  UInt32.ofNat ((checkpointContainingLedger task.accelerated task.mRange.mFirst).toNat +
    (getCheckpointFrequency task.accelerated).toNat * index)

def checkpoints : List UInt32 :=
  let freq := (getCheckpointFrequency task.accelerated).toNat
  let first := (checkpointContainingLedger task.accelerated task.mRange.mFirst).toNat
  let last := (checkpointContainingLedger task.accelerated task.mRange.mLast).toNat
  (List.range ((last - first) / freq + 1)).map (checkpointAt task)

def chain : List (LedgerHeaderHistoryEntry Hash Rest) :=
  (checkpoints task).flatMap (entriesOf task)

/-- Files from the newest to the oldest, each verified against what the one before left. -/
def FilesVerified : List UInt32 → LedgerNumHashPair Hash → Prop
  | [], _ => True
  | checkpoint :: older, ahead => ∃ next,
      FileVerified task ahead next (entriesOf task checkpoint) ∧ FilesVerified older next

def collected : List UInt32 → List (LedgerHeaderHistoryEntry Hash Rest)
  | [] => []
  | checkpoint :: older => collected older ++ entriesOf task checkpoint

theorem collected_reverse (listed : List UInt32) :
    collected task listed.reverse = listed.flatMap (entriesOf task) := by
  induction listed using List.reverseRecOn with
  | nil => rfl
  | append_singleton older newest ih =>
      rw [List.reverse_append, List.flatMap_append, ← ih]
      change collected task older.reverse ++ entriesOf task newest = _
      rw [List.flatMap_singleton]

variable {task}

theorem checkpointContainingLedger_mod (accelerated : Bool) (ledger : UInt32) :
    ((checkpointContainingLedger accelerated ledger).toNat + 1) %
      (getCheckpointFrequency accelerated).toNat = 0 := by
  unfold checkpointContainingLedger nextCheckpointLedger getCheckpointFrequency
  cases accelerated
  all_goals
    dsimp only
    split
    · rfl
    · simp only [UInt32.toNat_sub, UInt32.toNat_mul, UInt32.toNat_div, UInt32.toNat_add,
        Bool.false_eq_true, if_false, if_true, UInt32.reduceToNat]
      omega

section Run

variable [DecidableEq Hash] [Inhabited Hash] [Inhabited Rest]

theorem crank_succeeds (runs : Nat) (work : VerifyLedgerChainWork Hash Rest) (index : Nat)
    (numbered : work.mCurrCheckpoint.toNat =
      (checkpointContainingLedger task.accelerated task.mRange.mFirst).toNat +
        (getCheckpointFrequency task.accelerated).toNat * index)
    (succeeds : crank task runs work = .ok .WORK_SUCCESS) :
    FilesVerified task ((List.range (index + 1)).map (checkpointAt task)).reverse
      work.mVerifiedAhead := by
  induction runs generalizing work index with
  | zero => cases succeeds
  | succ runs ih =>
      obtain ⟨⟨state, ran⟩, step, succeeds⟩ := except_bind_ok.mp succeeds
      unfold onRun at step
      dsimp only at step
      split at step
      · cases step
      split at step
      · cases step
        cases succeeds
      · cases step
        cases succeeds
      · cases step
      · rename_i verified ok
        obtain ⟨same, file⟩ := verifyHistoryOfSingleCheckpoint_ok ok
        have here : checkpointAt task index = work.mCurrCheckpoint := by
          unfold checkpointAt
          rw [← numbered, UInt32.ofNat_toNat]
        have positive : 0 < (getCheckpointFrequency task.accelerated).toNat := by
          unfold getCheckpointFrequency
          split <;> decide
        rw [List.range_succ, List.map_append, List.reverse_append]
        change ∃ next, FileVerified task work.mVerifiedAhead next
            (entriesOf task (checkpointAt task index)) ∧ FilesVerified task _ next
        rw [here]
        refine ⟨_, file, ?_⟩
        split at step
        · rename_i atFirst
          cases step
          rw [same] at atFirst
          rw [atFirst] at numbered
          have first : index = 0 := by
            have nothing : (getCheckpointFrequency task.accelerated).toNat * index = 0 := by omega
            exact (Nat.mul_eq_zero.mp nothing).resolve_left positive.ne'
          rw [first]
          trivial
        · rename_i notFirst
          cases step
          obtain ⟨older, rfl⟩ : ∃ older, index = older + 1 := by
            cases index with
            | zero =>
                apply absurd _ notFirst
                rw [same]
                exact UInt32.toNat_inj.mp numbered
            | succ older => exact ⟨older, rfl⟩
          have stepped : (verified.mCurrCheckpoint -
              getCheckpointFrequency task.accelerated).toNat =
              (checkpointContainingLedger task.accelerated task.mRange.mFirst).toNat +
                (getCheckpointFrequency task.accelerated).toNat * older := by
            rw [same, UInt32.toNat_sub_of_le]
            · rw [numbered, Nat.mul_succ]
              omega
            · rw [UInt32.le_iff_toNat_le, numbered, Nat.mul_succ]
              omega
          exact ih ⟨verified.mCurrCheckpoint - getCheckpointFrequency task.accelerated,
            verified.mVerifiedAhead, verified.mVerifiedLedgerRangeStart⟩ older stepped succeeds

omit [DecidableEq Hash] in
theorem onReset_numbered
    (reached : checkpointContainingLedger task.accelerated task.mRange.mFirst ≤
      checkpointContainingLedger task.accelerated task.mRange.mLast) :
    (onReset task).mCurrCheckpoint.toNat =
      (checkpointContainingLedger task.accelerated task.mRange.mFirst).toNat +
        (getCheckpointFrequency task.accelerated).toNat *
          (((checkpointContainingLedger task.accelerated task.mRange.mLast).toNat -
            (checkpointContainingLedger task.accelerated task.mRange.mFirst).toNat) /
              (getCheckpointFrequency task.accelerated).toNat) := by
  rw [UInt32.le_iff_toNat_le] at reached
  have first := checkpointContainingLedger_mod task.accelerated task.mRange.mFirst
  have last := checkpointContainingLedger_mod task.accelerated task.mRange.mLast
  change (checkpointContainingLedger task.accelerated task.mRange.mLast).toNat = _
  have apart : (getCheckpointFrequency task.accelerated).toNat ∣
      (checkpointContainingLedger task.accelerated task.mRange.mLast).toNat -
        (checkpointContainingLedger task.accelerated task.mRange.mFirst).toNat := by
    have difference := Nat.dvd_sub (Nat.dvd_of_mod_eq_zero last) (Nat.dvd_of_mod_eq_zero first)
    rw [Nat.add_sub_add_right] at difference
    exact difference
  rw [Nat.mul_div_cancel' apart]
  omega

theorem filesVerified_of_crank {runs : Nat}
    (succeeds : crank task runs (onReset task) = .ok .WORK_SUCCESS) :
    FilesVerified task (checkpoints task).reverse (0, none) := by
  have reached : ¬ checkpointContainingLedger task.accelerated task.mRange.mLast <
      checkpointContainingLedger task.accelerated task.mRange.mFirst := by
    intro below
    cases runs with
    | zero => cases succeeds
    | succ runs =>
        obtain ⟨_, step, _⟩ := except_bind_ok.mp succeeds
        unfold onRun onReset at step
        dsimp only at step
        rw [if_pos below] at step
        cases step
  exact crank_succeeds runs (onReset task) _ (onReset_numbered (UInt32.not_lt.mp reached)) succeeds

end Run

/-! ### The chain of all files -/

section Linked

theorem aheadNonzero {next : LedgerNumHashPair Hash} {first : LedgerHeaderHistoryEntry Hash Rest}
    (nextIs : next = (first.header.ledgerSeq - 1, some first.header.previousLedgerHash))
    (firstIs : first.header.ledgerSeq ≠ 1) : next.1 ≠ 0 := by
  rw [nextIs]
  intro zero
  dsimp only at zero
  apply firstIs
  rw [← UInt32.sub_add_cancel first.header.ledgerSeq 1, zero]
  rfl

theorem filesVerified_below {files : List UInt32} {ahead : LedgerNumHashPair Hash}
    (verified : FilesVerified task files ahead) (some : files ≠ [])
    {above : LedgerHeaderHistoryEntry Hash Rest}
    (aheadIs : ahead = (above.header.ledgerSeq - 1, .some above.header.previousLedgerHash))
    (nonzero : ahead.1 ≠ 0)
    (starts : ∀ file ∈ files.dropLast, ∀ first ∈ (entriesOf task file).head?,
      first.header.ledgerSeq ≠ 1) :
    (∀ entry ∈ collected task files, Genuine task entry) ∧
      (collected task files).IsChain Links ∧
      (∀ entry ∈ collected task files, entry.header.ledgerSeq ≠ task.mRange.mLast) ∧
      ∀ last ∈ (collected task files).getLast?, Links last above := by
  induction files generalizing ahead above with
  | nil => exact absurd rfl some
  | cons newest older ih =>
      obtain ⟨next, file, verified⟩ := verified
      obtain ⟨last, isLast, either⟩ := file.last
      obtain ⟨first, rest, entries, nextIs⟩ := file.head
      rcases either with ⟨_, zero, _⟩ | ⟨inside, _, numbered, hashed⟩
      · exact absurd zero nonzero
      have links : Links last above := by
        constructor
        · rw [numbered, aheadIs]
          exact (UInt32.sub_add_cancel _ _).symm
        · rw [aheadIs] at hashed
          exact Option.some.inj hashed
      have notLast : ∀ entry ∈ entriesOf task newest,
          entry.header.ledgerSeq ≠ task.mRange.mLast := by
        intro entry member
        rw [← List.dropLast_append_getLast? last isLast] at member
        rcases List.mem_append.mp member with before | atEnd
        · exact file.once entry before
        · rw [List.mem_singleton.mp atEnd]
          exact inside
      by_cases oldest : older = []
      · subst oldest
        change (∀ entry ∈ [] ++ entriesOf task newest, _) ∧ ([] ++ entriesOf task newest).IsChain _ ∧
          (∀ entry ∈ [] ++ entriesOf task newest, _) ∧
          ∀ last ∈ ([] ++ entriesOf task newest).getLast?, _
        rw [List.nil_append, isLast]
        refine ⟨file.genuine, file.linked, notLast, ?_⟩
        intro other same
        cases same
        exact links
      · have dropped : (newest :: older).dropLast = newest :: older.dropLast := by
          cases older with
          | nil => exact absurd rfl oldest
          | cons _ _ => rfl
        rw [dropped] at starts
        have firstIs : first.header.ledgerSeq ≠ 1 :=
          starts newest List.mem_cons_self first (by rw [entries]; rfl)
        obtain ⟨genuine, linked, inside', below⟩ := ih verified oldest nextIs
          (aheadNonzero nextIs firstIs) fun file member => starts file (List.mem_cons_of_mem _ member)
        change (∀ entry ∈ collected task older ++ entriesOf task newest, _) ∧
          (collected task older ++ entriesOf task newest).IsChain _ ∧
          (∀ entry ∈ collected task older ++ entriesOf task newest, _) ∧
          ∀ last ∈ (collected task older ++ entriesOf task newest).getLast?, _
        refine ⟨?_, ?_, ?_, ?_⟩
        · intro entry member
          rcases List.mem_append.mp member with early | late
          · exact genuine entry early
          · exact file.genuine entry late
        · apply linked.append file.linked
          intro early atEnd late atStart
          rw [entries] at atStart
          cases atStart
          exact below early atEnd
        · intro entry member
          rcases List.mem_append.mp member with early | late
          · exact inside' entry early
          · exact notLast entry late
        · intro other same
          rw [List.getLast?_append, isLast] at same
          cases same
          exact links

/-- Where the files form one chain, none but the oldest begins with ledger 1: the number 0 that
would be left behind stands for a file that ends the range. -/
theorem starts_of_linked {files : List UInt32} {ahead : LedgerNumHashPair Hash}
    (verified : FilesVerified task files ahead) (linked : (collected task files).IsChain Links) :
    ∀ file ∈ files.dropLast, ∀ first ∈ (entriesOf task file).head?, first.header.ledgerSeq ≠ 1 := by
  induction files generalizing ahead with
  | nil =>
      intro _ member
      cases member
  | cons newest older ih =>
      obtain ⟨next, file, verified⟩ := verified
      have parts := List.isChain_append.mp linked
      cases older with
      | nil =>
          intro _ member
          cases member
      | cons second others =>
          intro file' member first atStart one
          rw [List.dropLast_cons_cons] at member
          rcases List.mem_cons.mp member with rfl | later
          · obtain ⟨first', rest, entries, nextIs⟩ := file.head
            rw [entries] at atStart
            cases atStart
            obtain ⟨_, below, _⟩ := verified
            obtain ⟨last, isLast, either⟩ := below.last
            have zero : next.1 = 0 := by
              rw [nextIs, one]
              rfl
            rcases either with ⟨atEnd, _, _⟩ | ⟨_, nonzero, _, _⟩
            · have adjacent : Links last first := by
                apply parts.2.2
                · change last ∈ (collected task others ++ entriesOf task second).getLast?
                  rw [List.getLast?_append, isLast]
                  rfl
                · rw [entries]
                  rfl
              have seq := adjacent.seq
              rw [one, atEnd] at seq
              have nothing : task.mRange.mLast = 0 :=
                (UInt32.add_right_inj 1).mp (by rw [UInt32.add_comm 1, ← seq]; rfl)
              have ordered := task.mRange.ordered
              rw [nothing] at ordered
              exact absurd (UInt32.lt_of_lt_of_le task.mRange.positive ordered)
                (UInt32.lt_irrefl 0)
            · exact nonzero zero
          · exact ih verified parts.1 file' later first atStart one

theorem run_of_linked {last : UInt32} {entry : LedgerHeaderHistoryEntry Hash Rest}
    {rest : List (LedgerHeaderHistoryEntry Hash Rest)} (linked : (entry :: rest).IsChain Links)
    (once : ∀ other ∈ (entry :: rest).dropLast, other.header.ledgerSeq ≠ last)
    (ends : ∀ other ∈ (entry :: rest).getLast?, other.header.ledgerSeq = last)
    (below : entry.header.ledgerSeq ≤ last) :
    (entry :: rest).map (fun entry => entry.header.ledgerSeq.toNat) =
      List.range' entry.header.ledgerSeq.toNat
        (last.toNat - entry.header.ledgerSeq.toNat + 1) := by
  induction rest generalizing entry with
  | nil =>
      rw [List.map_cons, List.map_nil, ends entry rfl, Nat.sub_self]
      rfl
  | cons second others ih =>
      rw [List.dropLast_cons_cons] at once
      rw [List.getLast?_cons_cons] at ends
      rw [List.isChain_cons_cons] at linked
      have different := once entry List.mem_cons_self
      have less : entry.header.ledgerSeq.toNat < last.toNat := by
        have le := UInt32.le_iff_toNat_le.mp below
        have ne : entry.header.ledgerSeq.toNat ≠ last.toNat :=
          fun same => different (UInt32.toNat_inj.mp same)
        omega
      have bound := UInt32.toNat_lt last
      have number : second.header.ledgerSeq.toNat = entry.header.ledgerSeq.toNat + 1 := by
        rw [linked.1.seq, UInt32.toNat_add]
        exact Nat.mod_eq_of_lt (by simp only [UInt32.reduceToNat]; omega)
      have later := ih linked.2 (fun other member => once other (List.mem_cons_of_mem _ member)) ends
        (UInt32.le_iff_toNat_le.mpr (by omega))
      rw [List.map_cons, later, number]
      have count : last.toNat - entry.header.ledgerSeq.toNat + 1 =
          last.toNat - (entry.header.ledgerSeq.toNat + 1) + 1 + 1 := by omega
      rw [count]
      rfl

structure ChainVerified (task : Task Hash Rest)
    (entries : List (LedgerHeaderHistoryEntry Hash Rest)) : Prop where
  genuine : ∀ entry ∈ entries, entry.hash = task.hashOf entry.header
  linked : entries.IsChain Links
  complete : ∃ earlier range, entries = earlier ++ range ∧
    range.map (fun entry => entry.header.ledgerSeq.toNat) =
      List.range' task.mRange.mFirst.toNat
        (task.mRange.mLast.toNat - task.mRange.mFirst.toNat + 1) ∧
    ∀ entry ∈ earlier, ¬ (task.mRange.mFirst ≤ entry.header.ledgerSeq ∧
      entry.header.ledgerSeq ≤ task.mRange.mLast)
  trusted : ∃ last, entries.getLast? = some last ∧
    last.header.ledgerSeq = task.mRange.mLast ∧
    ∀ hash, task.mTrustedEndLedger.2 = some hash → last.hash = hash
  lastClosed : ∀ entry ∈ entries, entry.header.ledgerSeq = task.mLastClosed.1 + 1 →
    entry.header.previousLedgerHash = task.mLastClosed.2

theorem filesVerified_linked {files : List UInt32} (verified : FilesVerified task files (0, none))
    (some : files ≠ [])
    (starts : ∀ file ∈ files.dropLast, ∀ first ∈ (entriesOf task file).head?,
      first.header.ledgerSeq ≠ 1) :
    (∀ entry ∈ collected task files, Genuine task entry) ∧
      (collected task files).IsChain Links ∧
      (∀ entry ∈ (collected task files).dropLast, entry.header.ledgerSeq ≠ task.mRange.mLast) ∧
      ∃ last, (collected task files).getLast? = .some last ∧
        last.header.ledgerSeq = task.mRange.mLast ∧
        ∀ hash, task.mTrustedEndLedger.2 = .some hash → last.hash = hash := by
  cases files with
  | nil => exact absurd rfl some
  | cons newest older =>
      obtain ⟨next, file, verified⟩ := verified
      obtain ⟨last, isLast, either⟩ := file.last
      obtain ⟨first, rest, entries, nextIs⟩ := file.head
      rcases either with ⟨atEnd, _, trusted⟩ | ⟨_, nonzero, _, _⟩
      rotate_left
      · exact absurd rfl nonzero
      have nonempty : entriesOf task newest ≠ [] := by
        rw [entries]
        exact List.cons_ne_nil first rest
      have joined : (collected task older ++ entriesOf task newest).dropLast =
          collected task older ++ (entriesOf task newest).dropLast :=
        List.dropLast_append_of_ne_nil nonempty
      change (∀ entry ∈ collected task older ++ entriesOf task newest, _) ∧
        (collected task older ++ entriesOf task newest).IsChain _ ∧
        (∀ entry ∈ (collected task older ++ entriesOf task newest).dropLast, _) ∧
        ∃ last, (collected task older ++ entriesOf task newest).getLast? = _ ∧ _
      rw [joined, List.getLast?_append, isLast]
      by_cases oldest : older = []
      · subst oldest
        exact ⟨file.genuine, file.linked, file.once, last, rfl, atEnd, trusted⟩
      · have dropped : (newest :: older).dropLast = newest :: older.dropLast := by
          cases older with
          | nil => exact absurd rfl oldest
          | cons _ _ => rfl
        rw [dropped] at starts
        have firstIs : first.header.ledgerSeq ≠ 1 :=
          starts newest List.mem_cons_self first (by rw [entries]; rfl)
        obtain ⟨genuine, linked, inside, below⟩ := filesVerified_below verified oldest nextIs
          (aheadNonzero nextIs firstIs) fun file member => starts file (List.mem_cons_of_mem _ member)
        refine ⟨?_, ?_, ?_, last, rfl, atEnd, trusted⟩
        · intro entry member
          rcases List.mem_append.mp member with early | late
          · exact genuine entry early
          · exact file.genuine entry late
        · apply linked.append file.linked
          intro early atEnd late atStart
          rw [entries] at atStart
          cases atStart
          exact below early atEnd
        · intro entry member
          rcases List.mem_append.mp member with early | late
          · exact inside entry early
          · exact file.once entry late

theorem complete_of_linked {entries : List (LedgerHeaderHistoryEntry Hash Rest)}
    (linked : entries.IsChain Links)
    (once : ∀ entry ∈ entries.dropLast, entry.header.ledgerSeq ≠ task.mRange.mLast)
    (ends : ∀ entry ∈ entries.getLast?, entry.header.ledgerSeq = task.mRange.mLast)
    {first : LedgerHeaderHistoryEntry Hash Rest} (present : first ∈ entries)
    (isFirst : first.header.ledgerSeq = task.mRange.mFirst) :
    ∃ earlier range, entries = earlier ++ range ∧
      range.map (fun entry => entry.header.ledgerSeq.toNat) =
        List.range' task.mRange.mFirst.toNat
          (task.mRange.mLast.toNat - task.mRange.mFirst.toNat + 1) ∧
      ∀ entry ∈ earlier, ¬ (task.mRange.mFirst ≤ entry.header.ledgerSeq ∧
        entry.header.ledgerSeq ≤ task.mRange.mLast) := by
  -- Any entry within the range is followed by the rest of the range and by nothing else.
  have suffix : ∀ (before after : List (LedgerHeaderHistoryEntry Hash Rest))
      (entry : LedgerHeaderHistoryEntry Hash Rest), entries = before ++ entry :: after →
      entry.header.ledgerSeq ≤ task.mRange.mLast →
      (entry :: after).map (fun entry => entry.header.ledgerSeq.toNat) =
        List.range' entry.header.ledgerSeq.toNat
          (task.mRange.mLast.toNat - entry.header.ledgerSeq.toNat + 1) := by
    intro before after entry split below
    rw [split] at linked once ends
    rw [List.dropLast_append_of_ne_nil (List.cons_ne_nil entry after)] at once
    apply run_of_linked linked.right_of_append
    · intro other member
      exact once other (List.mem_append_right before member)
    · intro other member
      apply ends
      rw [List.getLast?_append, member]
      rfl
    · exact below
  obtain ⟨earlier, later, split⟩ := List.append_of_mem present
  have ordered := task.mRange.ordered
  have run := suffix earlier later first split (by rw [isFirst]; exact ordered)
  rw [isFirst] at run
  refine ⟨earlier, first :: later, split, run, ?_⟩
  rintro entry member ⟨above, below⟩
  obtain ⟨before, after, splitEarlier⟩ := List.append_of_mem member
  have longer := suffix before (after ++ first :: later) entry
    (by rw [split, splitEarlier, List.append_assoc]; rfl) below
  have short := congrArg List.length run
  have long := congrArg List.length longer
  have le := UInt32.le_iff_toNat_le.mp above
  simp only [List.length_map, List.length_range', List.length_cons, List.length_append] at short long
  omega

/-- A chain that is verified with success is complete and linked throughout exactly when the first
ledger of the range is in it and no file but the oldest begins with ledger 1. -/
theorem crank_chainVerified [DecidableEq Hash] [Inhabited Hash] [Inhabited Rest]
    (task : Task Hash Rest) (runs : Nat)
    (succeeds : crank task runs (onReset task) = .ok .WORK_SUCCESS) :
    ChainVerified task (chain task) ↔
      (∃ entry ∈ chain task, entry.header.ledgerSeq = task.mRange.mFirst) ∧
        ∀ checkpoint ∈ (checkpoints task).tail, ∀ first ∈ (entriesOf task checkpoint).head?,
          first.header.ledgerSeq ≠ 1 := by
  have verified := filesVerified_of_crank succeeds
  have files : collected task (checkpoints task).reverse = chain task := collected_reverse task _
  have newer : (checkpoints task).reverse.dropLast = (checkpoints task).tail.reverse :=
    List.dropLast_reverse
  constructor
  · intro claimed
    constructor
    · obtain ⟨earlier, range, split, numbers, _⟩ := claimed.complete
      have first : task.mRange.mFirst.toNat ∈
          range.map (fun entry => entry.header.ledgerSeq.toNat) := by
        rw [numbers, List.range'_succ]
        exact List.mem_cons_self
      obtain ⟨entry, member, same⟩ := List.mem_map.mp first
      refine ⟨entry, ?_, UInt32.toNat_inj.mp same⟩
      rw [split]
      exact List.mem_append_right earlier member
    · intro checkpoint member
      apply starts_of_linked verified
      · rw [files]
        exact claimed.linked
      · rw [newer]
        exact List.mem_reverse.mpr member
  · intro ⟨⟨first, present, isFirst⟩, starts⟩
    have some : (checkpoints task).reverse ≠ [] := by
      unfold checkpoints
      simp
    obtain ⟨genuine, linked, once, last, isLast, atEnd, trusted⟩ :=
      filesVerified_linked verified some (by
        rw [newer]
        intro file member
        exact starts file (List.mem_reverse.mp member))
    rw [files] at genuine linked once isLast
    constructor
    · exact fun entry member => (genuine entry member).hash
    · exact linked
    · apply complete_of_linked linked once _ present isFirst
      intro entry member
      rw [isLast] at member
      cases member
      exact atEnd
    · exact ⟨last, isLast, atEnd, trusted⟩
    · exact fun entry member => (genuine entry member).next

end Linked

end Chain

/-! ### Archives that show the difference -/

section Archive

/-- A chain of headers in which the hash of ledger `n` is `n + 100`. -/
def numberedEntry (seq : UInt32) : LedgerHeaderHistoryEntry UInt32 Unit :=
  { hash := seq + 100
    header := { ledgerVersion := 11, previousLedgerHash := seq + 99, ledgerSeq := seq, rest := () } }

def numberedTask (range : LedgerRange) (files : UInt32 → Option (List UInt32)) :
    Task UInt32 Unit where
  hashOf := fun header => header.ledgerSeq + 100
  accelerated := false
  mDownloadDir := fun checkpoint => (files checkpoint).map fun numbers =>
    ⟨numbers.map numberedEntry, false⟩
  mRange := range
  mLastClosed := (2, 102)
  mTrustedEndLedger := (range.mLast, some (range.mLast + 100))
  rangeEnd := rfl

def wholeArchive : Task UInt32 Unit :=
  numberedTask ⟨60, 63, by decide, by decide⟩
    fun checkpoint => if checkpoint = 63 then some [60, 61, 62, 63] else none

def shortArchive : Task UInt32 Unit :=
  numberedTask ⟨3, 63, by decide, by decide⟩
    fun checkpoint => if checkpoint = 63 then some [63] else none

/-- Ledgers 3 to 127 in a file that begins with ledger 1, and ledger 127 once more in the older
file. -/
def repeatedArchive : Task UInt32 Unit :=
  numberedTask ⟨3, 127, by decide, by decide⟩
    fun checkpoint =>
      if checkpoint = 127 then some ((List.range' 1 127).map UInt32.ofNat)
      else if checkpoint = 63 then some [127] else none

theorem crank_chainVerified_whole : ChainVerified wholeArchive (chain wholeArchive) := by
  apply (crank_chainVerified wholeArchive 1 rfl).mpr
  have single : (checkpoints wholeArchive).tail = [] := rfl
  constructor
  · exact ⟨numberedEntry 60, by decide, rfl⟩
  · intro checkpoint later
    rw [single] at later
    cases later

set_option maxRecDepth 4000 in
theorem crank_passes_incomplete :
    (crank shortArchive 1 (onReset shortArchive) = .ok .WORK_SUCCESS ∧
      ¬ ChainVerified shortArchive (chain shortArchive)) ∧
    (crank repeatedArchive 2 (onReset repeatedArchive) = .ok .WORK_SUCCESS ∧
      ¬ ChainVerified repeatedArchive (chain repeatedArchive)) := by
  refine ⟨⟨rfl, ?_⟩, rfl, ?_⟩
  · intro claimed
    obtain ⟨earlier, range, split, numbers, _⟩ := claimed.complete
    have one : (chain shortArchive).length = 1 := rfl
    have many := congrArg List.length numbers
    rw [List.length_map, List.length_range'] at many
    change range.length = 61 at many
    rw [split, List.length_append] at one
    omega
  · intro claimed
    have linked := claimed.linked
    change (numberedEntry 127 :: numberedEntry 1 :: _).IsChain Links at linked
    have seq := (List.isChain_cons_cons.mp linked).1.seq
    exact absurd seq (by decide)

end Archive

end ViiCore.Catchup
