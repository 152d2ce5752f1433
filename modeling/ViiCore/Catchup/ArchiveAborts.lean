import ViiCore.Catchup.VerifiedChain

/-!
When verification of downloaded ledger headers aborts.

Every file is untrusted, and what is wrong inside it is found before its last ledger is compared
with the file above. That comparison asserts that the numbers fit, and nothing has checked them: a
file may end with the last ledger of the range below another one, the newest file may end before it,
and the file above may begin anywhere.
-/

namespace ViiCore.Catchup

variable {Hash Rest : Type} [DecidableEq Hash] (task : Task Hash Rest)

/-! ### What a file is checked for -/

/-- An entry of a supported version, with its own hash, that agrees with the last closed ledger. -/
structure Admissible (entry : LedgerHeaderHistoryEntry Hash Rest) : Prop where
  version : ¬ entry.header.ledgerVersion > CURRENT_LEDGER_PROTOCOL_VERSION
  genuine : Genuine task entry

/-- A file that passes every check of its own: the entries up to the last ledger of the range are
linked, and end with the checkpoint or with that ledger. -/
structure Accepted (checkpoint : UInt32) (first last : LedgerHeaderHistoryEntry Hash Rest) :
    Prop where
  head : (entriesOf task checkpoint).head? = some first
  getLast : (entriesOf task checkpoint).getLast? = some last
  admissible : ∀ entry ∈ entriesOf task checkpoint, Admissible task entry
  linked : (entriesOf task checkpoint).IsChain Links
  ends : last.header.ledgerSeq = checkpoint ∨ last.header.ledgerSeq = task.mRange.mLast

/-- The number of the last ledger of a file fits the first entry of the file above, if there is one.
Ledger 1 above leaves the number that stands for nothing. -/
def Continues (above : Option (LedgerHeaderHistoryEntry Hash Rest))
    (last : LedgerHeaderHistoryEntry Hash Rest) : Prop :=
  match above with
  | none => last.header.ledgerSeq = task.mRange.mLast
  | some next =>
      if last.header.ledgerSeq = task.mRange.mLast then next.header.ledgerSeq = 1
      else next.header.ledgerSeq = last.header.ledgerSeq + 1

/-- Its hash is the trusted one, or the one that the file above begins with. -/
def Agrees (above : Option (LedgerHeaderHistoryEntry Hash Rest))
    (last : LedgerHeaderHistoryEntry Hash Rest) : Prop :=
  if last.header.ledgerSeq = task.mRange.mLast then
    ∀ hash, task.mTrustedEndLedger.2 = some hash → last.hash = hash
  else ∀ next, above = some next → last.hash = next.header.previousLedgerHash

/-- From the newest file on: all files above agree, and one that passes its own checks has a last
number that does not fit. -/
def Clashes (above : Option (LedgerHeaderHistoryEntry Hash Rest)) : List UInt32 → Prop
  | [] => False
  | checkpoint :: older => ∃ first last, Accepted task checkpoint first last ∧
      (¬ Continues task above last ∨ Agrees task above last ∧ Clashes (some first) older)

/-! ### Checks that only reject -/

def OnlyRejects {α : Type} (result : Except Interruption α) : Prop :=
  ∀ interruption, result = .error interruption → ∃ status, interruption = .rejected status

theorem OnlyRejects.ok {α : Type} (value : α) : OnlyRejects (.ok value) := by
  intro _ impossible
  cases impossible

theorem OnlyRejects.reject {α : Type} (status : LedgerVerificationStatus) :
    OnlyRejects (reject status : Except Interruption α) := by
  intro _ same
  cases same
  exact ⟨status, rfl⟩

theorem OnlyRejects.bind {α β : Type} {first : Except Interruption α}
    {next : α → Except Interruption β} (rejects : OnlyRejects first)
    (later : ∀ value, OnlyRejects (next value)) : OnlyRejects (first >>= next) := by
  cases first with
  | error interruption =>
      intro _ same
      cases same
      exact rejects interruption rfl
  | ok value => exact later value

variable {task}

theorem verifyLedgerHistoryEntry_rejects (entry : LedgerHeaderHistoryEntry Hash Rest) :
    OnlyRejects (verifyLedgerHistoryEntry task entry) := by
  unfold verifyLedgerHistoryEntry
  split
  · exact .reject _
  · exact .ok _

theorem verifyLedgerHistoryLink_rejects (prev : Hash)
    (entry : LedgerHeaderHistoryEntry Hash Rest) :
    OnlyRejects (verifyLedgerHistoryLink task prev entry) := by
  refine (verifyLedgerHistoryEntry_rejects entry).bind fun _ => ?_
  split
  · exact .reject _
  · exact .ok _

theorem verifyLastClosed_rejects (entry : LedgerHeaderHistoryEntry Hash Rest) :
    OnlyRejects (verifyLastClosed task entry) := by
  unfold verifyLastClosed
  split
  · split
    · exact .reject _
    · exact .ok _
  split
  · exact verifyLedgerHistoryLink_rejects _ entry
  · exact .ok _

theorem verifyEntry_rejects (cursor : Cursor Hash Rest)
    (entry : LedgerHeaderHistoryEntry Hash Rest) :
    OnlyRejects (verifyEntry task cursor entry) := by
  unfold verifyEntry
  split
  · exact .reject _
  refine (verifyLastClosed_rejects entry).bind fun _ => ?_
  split
  · exact (verifyLedgerHistoryEntry_rejects entry).bind fun _ => .ok _
  · dsimp only
    split
    · exact .reject _
    split
    · exact .reject _
    · exact (verifyLedgerHistoryLink_rejects _ entry).bind fun _ => .ok _

theorem verifyEntries_rejects (entries : List (LedgerHeaderHistoryEntry Hash Rest))
    (cursor : Cursor Hash Rest) : OnlyRejects (verifyEntries task false entries cursor) := by
  induction entries generalizing cursor with
  | nil => exact .ok cursor
  | cons entry rest ih =>
      refine (verifyEntry_rejects cursor entry).bind fun next => ?_
      split
      · exact .ok next
      · exact ih next

/-! ### Files that pass -/

theorem verifyLedgerHistoryEntry_of {entry : LedgerHeaderHistoryEntry Hash Rest}
    (genuine : Genuine task entry) : verifyLedgerHistoryEntry task entry = .ok () := by
  unfold verifyLedgerHistoryEntry
  rw [if_neg (not_not.mpr genuine.hash.symm)]
  rfl

theorem verifyLedgerHistoryLink_of {prev : Hash} {entry : LedgerHeaderHistoryEntry Hash Rest}
    (genuine : Genuine task entry) (linked : entry.header.previousLedgerHash = prev) :
    verifyLedgerHistoryLink task prev entry = .ok () := by
  unfold verifyLedgerHistoryLink
  rw [verifyLedgerHistoryEntry_of genuine]
  change (if prev ≠ entry.header.previousLedgerHash then _ else _) = _
  rw [if_neg (not_not.mpr linked.symm)]
  rfl

theorem verifyLastClosed_of {entry : LedgerHeaderHistoryEntry Hash Rest}
    (genuine : Genuine task entry) : verifyLastClosed task entry = .ok () := by
  unfold verifyLastClosed
  split
  · rename_i closed
    rw [if_neg (not_not.mpr (genuine.closed closed))]
    rfl
  split
  · rename_i next
    exact verifyLedgerHistoryLink_of genuine (genuine.next next)
  · rfl

theorem verifyEntry_first_of {ahead : LedgerNumHashPair Hash}
    {entry : LedgerHeaderHistoryEntry Hash Rest} (admissible : Admissible task entry) :
    verifyEntry task ⟨ahead, none⟩ entry =
      .ok ⟨(entry.header.ledgerSeq - 1, some entry.header.previousLedgerHash), some entry⟩ := by
  unfold verifyEntry
  rw [if_neg admissible.version, verifyLastClosed_of admissible.genuine]
  dsimp only
  rw [verifyLedgerHistoryEntry_of admissible.genuine]
  rfl

theorem verifyEntry_next_of {ahead : LedgerNumHashPair Hash}
    {prev entry : LedgerHeaderHistoryEntry Hash Rest} (admissible : Admissible task entry)
    (links : Links prev entry) :
    verifyEntry task ⟨ahead, some prev⟩ entry = .ok ⟨ahead, some entry⟩ := by
  unfold verifyEntry
  rw [if_neg admissible.version, verifyLastClosed_of admissible.genuine]
  change (if entry.header.ledgerSeq < prev.header.ledgerSeq + 1 then _
    else if entry.header.ledgerSeq > prev.header.ledgerSeq + 1 then _ else _) = _
  rw [links.seq, if_neg (UInt32.lt_irrefl _), if_neg (UInt32.lt_irrefl _),
    verifyLedgerHistoryLink_of admissible.genuine links.hash]
  rfl

theorem verifyEntries_cons {malformed : Bool} {cursor next : Cursor Hash Rest}
    {entry : LedgerHeaderHistoryEntry Hash Rest}
    {rest : List (LedgerHeaderHistoryEntry Hash Rest)}
    (step : verifyEntry task cursor entry = .ok next) :
    verifyEntries task malformed (entry :: rest) cursor =
      if entry.header.ledgerSeq = task.mRange.mLast then .ok next
      else verifyEntries task malformed rest next := by
  rw [verifyEntries, step]
  rfl

theorem verifyEntries_next_of {ahead : LedgerNumHashPair Hash}
    {entries : List (LedgerHeaderHistoryEntry Hash Rest)}
    {prev : LedgerHeaderHistoryEntry Hash Rest}
    (admissible : ∀ entry ∈ readEntries task.mRange.mLast entries, Admissible task entry)
    (linked : (prev :: readEntries task.mRange.mLast entries).IsChain Links) :
    ∃ cursor, verifyEntries task false entries ⟨ahead, some prev⟩ = .ok cursor := by
  induction entries generalizing prev with
  | nil => exact ⟨_, rfl⟩
  | cons entry rest ih =>
      unfold readEntries at admissible linked
      split at admissible
      · rename_i last
        rw [if_pos last] at linked
        have links := (List.isChain_cons_cons.mp linked).1
        rw [verifyEntries_cons (verifyEntry_next_of (admissible entry List.mem_cons_self) links),
          if_pos last]
        exact ⟨_, rfl⟩
      · rename_i inside
        rw [if_neg inside] at linked
        obtain ⟨links, linkedRest⟩ := List.isChain_cons_cons.mp linked
        rw [verifyEntries_cons (verifyEntry_next_of (admissible entry List.mem_cons_self) links),
          if_neg inside]
        exact ih (fun other member => admissible other (List.mem_cons_of_mem entry member))
          linkedRest

theorem verifyEntries_of {ahead : LedgerNumHashPair Hash}
    {entries : List (LedgerHeaderHistoryEntry Hash Rest)}
    (admissible : ∀ entry ∈ readEntries task.mRange.mLast entries, Admissible task entry)
    (linked : (readEntries task.mRange.mLast entries).IsChain Links) :
    ∃ cursor, verifyEntries task false entries ⟨ahead, none⟩ = .ok cursor := by
  cases entries with
  | nil => exact ⟨_, rfl⟩
  | cons entry rest =>
      unfold readEntries at admissible linked
      split at admissible
      · rename_i last
        rw [verifyEntries_cons (verifyEntry_first_of (admissible entry List.mem_cons_self)),
          if_pos last]
        exact ⟨_, rfl⟩
      · rename_i inside
        rw [if_neg inside] at linked
        rw [verifyEntries_cons (verifyEntry_first_of (admissible entry List.mem_cons_self)),
          if_neg inside]
        exact verifyEntries_next_of
          (fun other member => admissible other (List.mem_cons_of_mem entry member)) linked

/-! ### What an accepted loop has seen -/

theorem verifyEntry_version {cursor next : Cursor Hash Rest}
    {entry : LedgerHeaderHistoryEntry Hash Rest}
    (ok : verifyEntry task cursor entry = .ok next) :
    ¬ entry.header.ledgerVersion > CURRENT_LEDGER_PROTOCOL_VERSION := by
  intro above
  unfold verifyEntry at ok
  rw [if_pos above] at ok
  cases ok

theorem verifyEntries_versions {malformed : Bool} {cursor after : Cursor Hash Rest}
    {entries : List (LedgerHeaderHistoryEntry Hash Rest)}
    (ok : verifyEntries task malformed entries cursor = .ok after) :
    ∀ entry ∈ readEntries task.mRange.mLast entries,
      ¬ entry.header.ledgerVersion > CURRENT_LEDGER_PROTOCOL_VERSION := by
  induction entries generalizing cursor with
  | nil =>
      intro entry absent
      cases absent
  | cons first rest ih =>
      obtain ⟨next, step, ok⟩ := except_bind_ok.mp ok
      have version := verifyEntry_version step
      unfold readEntries
      split at ok
      · rename_i last
        rw [if_pos last]
        intro entry member
        rw [List.mem_singleton.mp member]
        exact version
      · rename_i inside
        rw [if_neg inside]
        intro entry member
        rcases List.mem_cons.mp member with rfl | later
        · exact version
        · exact ih ok entry later

theorem verifyEntries_first {malformed : Bool} {ahead : LedgerNumHashPair Hash}
    {first : LedgerHeaderHistoryEntry Hash Rest}
    {rest : List (LedgerHeaderHistoryEntry Hash Rest)} {cursor : Cursor Hash Rest}
    (ok : verifyEntries task malformed (first :: rest) ⟨ahead, none⟩ = .ok cursor) :
    (∀ entry ∈ readEntries task.mRange.mLast (first :: rest), Admissible task entry) ∧
      (readEntries task.mRange.mLast (first :: rest)).IsChain Links ∧
      cursor = ⟨(first.header.ledgerSeq - 1, some first.header.previousLedgerHash),
        (readEntries task.mRange.mLast (first :: rest)).getLast?⟩ := by
  have versions := verifyEntries_versions ok
  obtain ⟨middle, started, looped⟩ := except_bind_ok.mp ok
  obtain ⟨genuine, rfl⟩ := verifyEntry_first started
  unfold readEntries at versions ⊢
  split at looped
  · rename_i isLast
    cases looped
    rw [if_pos isLast] at versions ⊢
    refine ⟨?_, .singleton first, rfl⟩
    intro entry member
    obtain rfl := List.mem_singleton.mp member
    exact ⟨versions entry member, genuine⟩
  · rename_i inside
    obtain ⟨genuineRest, linked, same⟩ := verifyEntries_next looped
    rw [if_neg inside] at versions ⊢
    refine ⟨?_, linked, same⟩
    intro entry member
    refine ⟨versions entry member, ?_⟩
    rcases List.mem_cons.mp member with rfl | later
    · exact genuine
    · exact genuineRest entry later

/-! ### The comparison with the file above -/

section Comparison

variable {last : LedgerHeaderHistoryEntry Hash Rest}
  {above : Option (LedgerHeaderHistoryEntry Hash Rest)}

def leftBy : Option (LedgerHeaderHistoryEntry Hash Rest) → LedgerNumHashPair Hash
  | none => (0, none)
  | some next => (next.header.ledgerSeq - 1, some next.header.previousLedgerHash)

omit [DecidableEq Hash] in
theorem leftBy_zero_iff (next : LedgerHeaderHistoryEntry Hash Rest) :
    (leftBy (some next)).1 = 0 ↔ next.header.ledgerSeq = 1 := by
  change next.header.ledgerSeq - 1 = 0 ↔ _
  constructor
  · intro zero
    rw [← UInt32.sub_add_cancel next.header.ledgerSeq 1, zero]
    rfl
  · intro one
    rw [one]
    rfl

theorem verifyLastLedgerInCheckpoint_of {expected : LedgerNumHashPair Hash}
    (numbered : last.header.ledgerSeq = expected.1) :
    ((∀ hash, expected.2 = some hash → last.hash = hash) →
      verifyLastLedgerInCheckpoint last expected = .ok ()) ∧
    ((¬ ∀ hash, expected.2 = some hash → last.hash = hash) →
      ∃ status, verifyLastLedgerInCheckpoint last expected = .error (.rejected status)) := by
  unfold verifyLastLedgerInCheckpoint
  rw [numbered, decide_eq_true rfl]
  cases known : expected.2 with
  | none =>
      refine ⟨fun _ => rfl, fun different => absurd ?_ different⟩
      intro hash impossible
      cases impossible
  | some trusted =>
      constructor
      · intro same
        exact if_neg (not_not.mpr (same trusted rfl))
      · intro different
        refine ⟨.VERIFY_STATUS_ERR_BAD_HASH, if_pos ?_⟩
        intro same
        apply different
        intro hash is
        cases is
        exact same

omit [DecidableEq Hash] in
theorem aheadOf_end {ahead : LedgerNumHashPair Hash} (zero : ahead.1 = 0) :
    aheadOf task task.mRange.mLast ahead = .ok task.mTrustedEndLedger := by
  unfold aheadOf
  rw [if_pos rfl, decide_eq_true zero]
  rfl

omit [DecidableEq Hash] in
theorem aheadOf_inside {number : UInt32} {next : LedgerHeaderHistoryEntry Hash Rest}
    (inside : number ≠ task.mRange.mLast) (nonzero : (leftBy (some next)).1 ≠ 0) :
    aheadOf task number (leftBy (some next)) = .ok (leftBy (some next)) := by
  unfold aheadOf
  rw [if_neg inside, decide_eq_true nonzero]
  rfl

def comparison (task : Task Hash Rest) (last : LedgerHeaderHistoryEntry Hash Rest)
    (above : Option (LedgerHeaderHistoryEntry Hash Rest)) : Except Interruption Unit := do
  let next ← aheadOf task last.header.ledgerSeq (leftBy above)
  verifyLastLedgerInCheckpoint last next

theorem comparison_asserts (differs : ¬ Continues task above last) :
    ∃ what, comparison task last above = .error (.assertion what) := by
  unfold comparison
  cases above with
  | none =>
      change last.header.ledgerSeq ≠ task.mRange.mLast at differs
      refine ⟨"nextCheckpointFirstLedger.second", ?_⟩
      rw [aheadOf, if_neg differs]
      rfl
  | some next =>
      unfold Continues at differs
      dsimp only at differs
      split at differs
      · rename_i atEnd
        have nonzero := (leftBy_zero_iff next).not.mpr differs
        refine ⟨"nextCheckpointFirstLedger.first == 0", ?_⟩
        rw [aheadOf, if_pos atEnd, decide_eq_false nonzero]
        rfl
      · rename_i inside
        by_cases zero : (leftBy (some next)).1 = 0
        · refine ⟨"nextCheckpointFirstLedger.first != 0", ?_⟩
          rw [aheadOf, if_neg inside, decide_eq_false (not_not.mpr zero)]
          rfl
        · have apart : last.header.ledgerSeq ≠ (leftBy (some next)).1 := by
            intro same
            apply differs
            rw [same]
            exact (UInt32.sub_add_cancel _ _).symm
          refine ⟨"ledger.header.ledgerSeq", ?_⟩
          rw [aheadOf_inside inside zero]
          change verifyLastLedgerInCheckpoint last _ = _
          rw [verifyLastLedgerInCheckpoint, decide_eq_false apart]
          rfl

theorem comparison_continues (nonzero : last.header.ledgerSeq ≠ 0)
    (continues : Continues task above last) :
    (Agrees task above last → comparison task last above = .ok ()) ∧
    (¬ Agrees task above last →
      ∃ status, comparison task last above = .error (.rejected status)) := by
  unfold comparison
  by_cases atEnd : last.header.ledgerSeq = task.mRange.mLast
  · have zero : (leftBy above).1 = 0 := by
      cases above with
      | none => rfl
      | some next =>
          unfold Continues at continues
          dsimp only at continues
          rw [if_pos atEnd] at continues
          exact (leftBy_zero_iff next).mpr continues
    rw [Agrees, if_pos atEnd, atEnd, aheadOf_end zero]
    exact verifyLastLedgerInCheckpoint_of (atEnd.trans task.rangeEnd)
  · cases above with
    | none => exact absurd continues atEnd
    | some next =>
        unfold Continues at continues
        dsimp only at continues
        rw [if_neg atEnd] at continues
        have numbered : last.header.ledgerSeq = (leftBy (some next)).1 := by
          change _ = next.header.ledgerSeq - 1
          rw [continues, UInt32.add_sub_cancel]
        have left : (leftBy (some next)).1 ≠ 0 := by
          rw [← numbered]
          exact nonzero
        have compared := verifyLastLedgerInCheckpoint_of numbered
        have same : (∀ hash, (leftBy (some next)).2 = some hash → last.hash = hash) ↔
            ∀ above, some next = some above → last.hash = above.header.previousLedgerHash := by
          constructor
          · intro hashed above is
            cases is
            exact hashed _ rfl
          · intro hashed hash is
            cases is
            exact hashed next rfl
        rw [Agrees, if_neg atEnd, aheadOf_inside atEnd left, ← same]
        exact compared

end Comparison

/-! ### One file -/

section File

variable [Inhabited Hash] [Inhabited Rest]

variable (task) in
def Readable : Prop :=
  ∀ checkpoint file, task.mDownloadDir checkpoint = some file → file.malformed = false

variable {work : VerifyLedgerChainWork Hash Rest} {first last : LedgerHeaderHistoryEntry Hash Rest}
  {above : Option (LedgerHeaderHistoryEntry Hash Rest)}

theorem single_refused (readable : Readable task) (nonzero : work.mCurrCheckpoint ≠ 0)
    (refused : ¬ ∃ first last, Accepted task work.mCurrCheckpoint first last) :
    verifyHistoryOfSingleCheckpoint task work = .error .fileSystemException ∨
      ∃ status, verifyHistoryOfSingleCheckpoint task work = .error (.rejected status) := by
  unfold verifyHistoryOfSingleCheckpoint
  cases found : task.mDownloadDir work.mCurrCheckpoint with
  | none => exact Or.inl rfl
  | some file =>
      right
      have entries : entriesOf task work.mCurrCheckpoint =
          readEntries task.mRange.mLast file.entries := by
        rw [entriesOf, found]
        rfl
      dsimp only
      rw [readable work.mCurrCheckpoint file found]
      cases looped : verifyEntries task false file.entries ⟨work.mVerifiedAhead, none⟩ with
      | error interruption =>
          obtain ⟨status, rfl⟩ := verifyEntries_rejects _ _ interruption looped
          exact ⟨status, rfl⟩
      | ok cursor =>
          have missing : (cursor.prev.getD default).header.ledgerSeq ≠ work.mCurrCheckpoint ∧
              (cursor.prev.getD default).header.ledgerSeq ≠ task.mRange.mLast := by
            cases listed : file.entries with
            | nil =>
                rw [listed] at looped
                cases looped
                refine ⟨nonzero.symm, fun zero => ?_⟩
                have ordered := task.mRange.ordered
                rw [← zero] at ordered
                exact UInt32.lt_irrefl 0 (UInt32.lt_of_lt_of_le task.mRange.positive ordered)
            | cons head rest =>
                rw [listed] at looped entries
                obtain ⟨admissible, linked, rfl⟩ := verifyEntries_first looped
                rw [← entries] at admissible linked ⊢
                obtain ⟨last, isLast⟩ : ∃ last,
                    (entriesOf task work.mCurrCheckpoint).getLast? = some last := by
                  refine ⟨_, List.getLast?_eq_some_getLast ?_⟩
                  rw [entries, readEntries]
                  split <;> exact List.cons_ne_nil _ _
                dsimp only
                rw [isLast, Option.getD_some]
                by_contra either
                rw [not_and_or, not_not, not_not] at either
                refine refused ⟨head, last, ?_, isLast, admissible, linked, either⟩
                rw [entries, readEntries]
                split <;> rfl
          refine ⟨.VERIFY_STATUS_ERR_MISSING_ENTRIES, ?_⟩
          exact if_pos missing

theorem single_accepted (readable : Readable task) (left : work.mVerifiedAhead = leftBy above)
    (accepted : Accepted task work.mCurrCheckpoint first last) :
    ∃ start, verifyHistoryOfSingleCheckpoint task work = do
      comparison task last above
      return ⟨work.mCurrCheckpoint, leftBy (some first), start⟩ := by
  obtain ⟨file, found⟩ : ∃ file, task.mDownloadDir work.mCurrCheckpoint = some file := by
    cases found : task.mDownloadDir work.mCurrCheckpoint with
    | none =>
        have head := accepted.head
        rw [entriesOf, found] at head
        cases head
    | some file => exact ⟨file, rfl⟩
  have entries : entriesOf task work.mCurrCheckpoint =
      readEntries task.mRange.mLast file.entries := by
    rw [entriesOf, found]
    rfl
  have head := accepted.head
  have admissible := accepted.admissible
  have linked := accepted.linked
  have atEnd := accepted.getLast
  rw [entries] at head admissible linked atEnd
  obtain ⟨cursor, looped⟩ := @verifyEntries_of _ _ _ task work.mVerifiedAhead _ admissible linked
  have cursorIs : cursor = ⟨leftBy (some first), some last⟩ := by
    cases listed : file.entries with
    | nil =>
        rw [listed] at head
        cases head
    | cons entry rest =>
        rw [listed] at looped head atEnd
        obtain ⟨-, -, rfl⟩ := verifyEntries_first looped
        have same : entry = first := by
          rw [readEntries] at head
          split at head
          · exact Option.some.inj head
          · exact Option.some.inj head
        rw [atEnd, same]
        rfl
  subst cursorIs
  have present : ¬ (last.header.ledgerSeq ≠ work.mCurrCheckpoint ∧
      last.header.ledgerSeq ≠ task.mRange.mLast) :=
    fun neither => accepted.ends.elim neither.1 neither.2
  refine ⟨if work.mCurrCheckpoint = checkpointContainingLedger task.accelerated task.mRange.mFirst
    then last else work.mVerifiedLedgerRangeStart, ?_⟩
  unfold verifyHistoryOfSingleCheckpoint
  rw [found]
  dsimp only
  rw [readable work.mCurrCheckpoint file found, looped, comparison, ← left,
    bind_assoc]
  exact if_neg present

end File

/-! ### The whole work -/

section Run

variable [Inhabited Hash] [Inhabited Rest]

variable (task) in
def Ends (work : VerifyLedgerChainWork Hash Rest) : Prop :=
  ∃ runs state, crank task runs work = .ok state ∧ state ≠ .WORK_RUNNING

theorem Ends.of_done {work after : VerifyLedgerChainWork Hash Rest} {state : WorkState}
    (step : onRun task work = .ok (state, after)) (done : state ≠ .WORK_RUNNING) :
    Ends task work := by
  refine ⟨1, state, ?_, done⟩
  rw [crank, step]
  cases state with
  | WORK_RUNNING => exact absurd rfl done
  | WORK_SUCCESS => rfl
  | WORK_FAILURE => rfl

theorem not_ends_of_error {work : VerifyLedgerChainWork Hash Rest} {interruption : Interruption}
    (step : onRun task work = .error interruption) : ¬ Ends task work := by
  intro ⟨runs, state, ended, done⟩
  cases runs with
  | zero =>
      cases ended
      exact done rfl
  | succ runs =>
      rw [crank, step] at ended
      cases ended

theorem ends_iff_of_running {work after : VerifyLedgerChainWork Hash Rest}
    (step : onRun task work = .ok (.WORK_RUNNING, after)) :
    Ends task work ↔ Ends task after := by
  constructor
  · intro ⟨runs, state, ended, done⟩
    cases runs with
    | zero =>
        cases ended
        exact absurd rfl done
    | succ runs =>
        rw [crank, step] at ended
        exact ⟨runs, state, ended, done⟩
  · intro ⟨runs, state, ended, done⟩
    refine ⟨runs + 1, state, ?_, done⟩
    rw [crank, step]
    exact ended

theorem not_ends_of_crank {runs : Nat} {interruption : Interruption}
    {work : VerifyLedgerChainWork Hash Rest}
    (aborts : crank task runs work = .error interruption) : ¬ Ends task work := by
  induction runs generalizing work with
  | zero => cases aborts
  | succ runs ih =>
      cases step : onRun task work with
      | error thrown => exact not_ends_of_error step
      | ok ran =>
          obtain ⟨state, after⟩ := ran
          rw [crank, step] at aborts
          cases state with
          | WORK_RUNNING =>
              rw [ends_iff_of_running step]
              exact ih aborts
          | WORK_SUCCESS => cases aborts
          | WORK_FAILURE => cases aborts

section Step

variable {work : VerifyLedgerChainWork Hash Rest}
  (reached : ¬ work.mCurrCheckpoint <
    checkpointContainingLedger task.accelerated task.mRange.mFirst)

include reached

theorem onRun_refused (refused : verifyHistoryOfSingleCheckpoint task work =
      .error .fileSystemException ∨
    ∃ status, verifyHistoryOfSingleCheckpoint task work = .error (.rejected status)) :
    onRun task work = .ok (.WORK_FAILURE, work) := by
  unfold onRun
  dsimp only
  rw [if_neg reached]
  rcases refused with missing | ⟨status, rejected⟩
  · rw [missing]
    rfl
  · rw [rejected]
    rfl

theorem onRun_asserts {what : String}
    (asserts : verifyHistoryOfSingleCheckpoint task work = .error (.assertion what)) :
    onRun task work = .error (.assertion what) := by
  unfold onRun
  dsimp only
  rw [if_neg reached, asserts]
  rfl

theorem onRun_verified {verified : VerifyLedgerChainWork Hash Rest}
    (ok : verifyHistoryOfSingleCheckpoint task work = .ok verified) :
    onRun task work =
      if verified.mCurrCheckpoint = checkpointContainingLedger task.accelerated task.mRange.mFirst
      then .ok (.WORK_SUCCESS, verified)
      else .ok (.WORK_RUNNING, { verified with
        mCurrCheckpoint :=
          verified.mCurrCheckpoint - getCheckpointFrequency task.accelerated }) := by
  unfold onRun
  dsimp only
  rw [if_neg reached, ok]
  rfl

end Step

theorem getCheckpointFrequency_large (accelerated : Bool) :
    1 < (getCheckpointFrequency accelerated).toNat := by
  unfold getCheckpointFrequency
  split <;> decide

omit [DecidableEq Hash] [Inhabited Hash] [Inhabited Rest] in
theorem clashes_cons {checkpoint : UInt32} {older : List UInt32}
    {above : Option (LedgerHeaderHistoryEntry Hash Rest)}
    {first last : LedgerHeaderHistoryEntry Hash Rest}
    (accepted : Accepted task checkpoint first last) :
    Clashes task above (checkpoint :: older) ↔
      ¬ Continues task above last ∨ Agrees task above last ∧ Clashes task (some first) older := by
  constructor
  · intro ⟨first', last', accepted', clash⟩
    have sameFirst := Option.some.inj (accepted'.head.symm.trans accepted.head)
    have sameLast := Option.some.inj (accepted'.getLast.symm.trans accepted.getLast)
    rw [sameFirst, sameLast] at clash
    exact clash
  · intro clash
    exact ⟨first, last, accepted, clash⟩

theorem ends_step (readable : Readable task) {work : VerifyLedgerChainWork Hash Rest}
    {above : Option (LedgerHeaderHistoryEntry Hash Rest)} {older : List UInt32}
    (reached : ¬ work.mCurrCheckpoint <
      checkpointContainingLedger task.accelerated task.mRange.mFirst)
    (nonzero : work.mCurrCheckpoint ≠ 0) (left : work.mVerifiedAhead = leftBy above)
    (later : ∀ first start,
      verifyHistoryOfSingleCheckpoint task work =
        .ok ⟨work.mCurrCheckpoint, leftBy (some first), start⟩ →
      (Ends task work ↔ ¬ Clashes task (some first) older)) :
    Ends task work ↔ ¬ Clashes task above (work.mCurrCheckpoint :: older) := by
  by_cases found : ∃ first last, Accepted task work.mCurrCheckpoint first last
  · obtain ⟨first, last, accepted⟩ := found
    obtain ⟨start, compared⟩ := single_accepted readable left accepted
    rw [clashes_cons accepted]
    by_cases continues : Continues task above last
    · have lastNonzero : last.header.ledgerSeq ≠ 0 := by
        rcases accepted.ends with atCheckpoint | atEnd
        · rw [atCheckpoint]
          exact nonzero
        · rw [atEnd]
          intro zero
          have positive := UInt32.lt_of_lt_of_le task.mRange.positive task.mRange.ordered
          rw [zero] at positive
          exact UInt32.lt_irrefl 0 positive
      obtain ⟨passes, rejects⟩ := comparison_continues lastNonzero continues
      by_cases agrees : Agrees task above last
      · rw [passes agrees] at compared
        rw [later first start compared]
        tauto
      · obtain ⟨status, rejected⟩ := rejects agrees
        rw [rejected] at compared
        have ended := Ends.of_done (onRun_refused reached (Or.inr ⟨status, compared⟩)) (by decide)
        tauto
    · obtain ⟨what, asserted⟩ := comparison_asserts continues
      rw [asserted] at compared
      have aborted := not_ends_of_error (onRun_asserts reached compared)
      tauto
  · have refused := single_refused readable nonzero found
    have ended := Ends.of_done (onRun_refused reached refused) (by decide)
    have none : ¬ Clashes task above (work.mCurrCheckpoint :: older) := by
      intro ⟨first, last, accepted, _⟩
      exact found ⟨first, last, accepted⟩
    exact iff_of_true ended none

omit [DecidableEq Hash] [Inhabited Hash] [Inhabited Rest] in
theorem checkpointAt_numbered {index : Nat} {checkpoint : UInt32}
    (numbered : checkpoint.toNat =
      (checkpointContainingLedger task.accelerated task.mRange.mFirst).toNat +
        (getCheckpointFrequency task.accelerated).toNat * index) :
    checkpointAt task index = checkpoint ∧ checkpoint ≠ 0 ∧
      ¬ checkpoint < checkpointContainingLedger task.accelerated task.mRange.mFirst := by
  refine ⟨?_, ?_, ?_⟩
  · unfold checkpointAt
    rw [← numbered, UInt32.ofNat_toNat]
  · intro zero
    have large := getCheckpointFrequency_large task.accelerated
    have aligned := checkpointContainingLedger_mod task.accelerated task.mRange.mFirst
    rw [zero, UInt32.toNat_zero] at numbered
    have first : (checkpointContainingLedger task.accelerated task.mRange.mFirst).toNat = 0 := by
      omega
    rw [first, Nat.zero_add, Nat.mod_eq_of_lt large] at aligned
    cases aligned
  · rw [UInt32.lt_iff_toNat_lt]
    omega

omit [DecidableEq Hash] [Inhabited Hash] [Inhabited Rest] in
theorem range_reverse (index : Nat) :
    ((List.range (index + 1)).map (checkpointAt task)).reverse =
      checkpointAt task index :: ((List.range index).map (checkpointAt task)).reverse := by
  rw [List.range_succ, List.map_append, List.reverse_append]
  rfl

theorem ends_iff (readable : Readable task) (index : Nat)
    (work : VerifyLedgerChainWork Hash Rest)
    (above : Option (LedgerHeaderHistoryEntry Hash Rest))
    (numbered : work.mCurrCheckpoint.toNat =
      (checkpointContainingLedger task.accelerated task.mRange.mFirst).toNat +
        (getCheckpointFrequency task.accelerated).toNat * index)
    (left : work.mVerifiedAhead = leftBy above) :
    Ends task work ↔
      ¬ Clashes task above ((List.range (index + 1)).map (checkpointAt task)).reverse := by
  induction index generalizing work above with
  | zero =>
      obtain ⟨here, nonzero, reached⟩ := checkpointAt_numbered numbered
      rw [range_reverse, here]
      apply ends_step readable reached nonzero left
      intro first start verified
      have step := onRun_verified reached verified
      rw [if_pos (UInt32.toNat_inj.mp numbered)] at step
      exact iff_of_true (Ends.of_done step (by decide)) (fun none => none)
  | succ older ih =>
      obtain ⟨here, nonzero, reached⟩ := checkpointAt_numbered numbered
      rw [range_reverse, here]
      apply ends_step readable reached nonzero left
      intro first start verified
      have step := onRun_verified reached verified
      have large := getCheckpointFrequency_large task.accelerated
      have notFirst : work.mCurrCheckpoint ≠
          checkpointContainingLedger task.accelerated task.mRange.mFirst := by
        intro atFirst
        rw [atFirst, Nat.mul_succ] at numbered
        omega
      rw [if_neg notFirst] at step
      rw [ends_iff_of_running step]
      apply ih _ (some first) _ rfl
      change (work.mCurrCheckpoint - getCheckpointFrequency task.accelerated).toNat = _
      have below : getCheckpointFrequency task.accelerated ≤ work.mCurrCheckpoint := by
        rw [UInt32.le_iff_toNat_le, numbered, Nat.mul_succ]
        omega
      rw [UInt32.toNat_sub_of_le _ _ below, numbered, Nat.mul_succ]
      omega

/-- The work comes to its end exactly when the range does not end before it begins and the last
number of every file that passes its own checks fits the file above. -/
theorem crank_ends_iff (task : Task Hash Rest) (readable : Readable task) :
    Ends task (onReset task) ↔
      checkpointContainingLedger task.accelerated task.mRange.mFirst ≤
          checkpointContainingLedger task.accelerated task.mRange.mLast ∧
        ¬ Clashes task none (checkpoints task).reverse := by
  by_cases reached : checkpointContainingLedger task.accelerated task.mRange.mFirst ≤
      checkpointContainingLedger task.accelerated task.mRange.mLast
  · have ended := ends_iff readable _ (onReset task) none (onReset_numbered reached) rfl
    rw [ended]
    exact (and_iff_right reached).symm
  · have step : onRun task (onReset task) =
        .error (.runtimeError "Verification undershot first ledger in the range.") := by
      unfold onRun onReset
      dsimp only
      rw [if_pos (UInt32.not_le.mp reached)]
      rfl
    exact iff_of_false (not_ends_of_error step) fun both => reached both.1

end Run

/-! ### Archives that abort the work -/

section Archive

theorem numberedTask_readable (range : LedgerRange) (files : UInt32 → Option (List UInt32)) :
    Readable (numberedTask range files) := by
  intro checkpoint file found
  obtain ⟨numbers, _, rfl⟩ := Option.map_eq_some_iff.mp found
  rfl

theorem crank_ends_whole : Ends wholeArchive (onReset wholeArchive) := by
  apply (crank_ends_iff wholeArchive (numberedTask_readable _ _)).mpr
  refine ⟨by decide, ?_⟩
  intro ⟨first, last, accepted, clash⟩
  have isLast : some (numberedEntry 63) = some last := accepted.getLast
  cases isLast
  rcases clash with differs | ⟨_, nothing⟩
  · exact differs rfl
  · exact nothing

/-- The last ledger of the range is missing: the file has the checkpoint's ledger alone. -/
def cutArchive : Task UInt32 Unit :=
  numberedTask ⟨60, 62, wholeArchive.mRange.positive, by decide⟩
    fun checkpoint => if checkpoint = 63 then some [63] else none

/-- The older file has the last ledger of the range, too. -/
def doubledArchive : Task UInt32 Unit :=
  numberedTask repeatedArchive.mRange
    fun checkpoint => if checkpoint = 127 ∨ checkpoint = 63 then some [127] else none

def gappedArchive : Task UInt32 Unit :=
  numberedTask repeatedArchive.mRange
    fun checkpoint => if checkpoint = 127 ∨ checkpoint = 63 then some [checkpoint] else none

theorem crank_aborts :
    (Readable cutArchive ∧
      crank cutArchive 1 (onReset cutArchive) =
        .error (.assertion "nextCheckpointFirstLedger.second") ∧
      ¬ Ends cutArchive (onReset cutArchive)) ∧
    (Readable doubledArchive ∧
      crank doubledArchive 2 (onReset doubledArchive) =
        .error (.assertion "nextCheckpointFirstLedger.first == 0") ∧
      ¬ Ends doubledArchive (onReset doubledArchive)) ∧
    (Readable gappedArchive ∧
      crank gappedArchive 2 (onReset gappedArchive) =
        .error (.assertion "ledger.header.ledgerSeq") ∧
      ¬ Ends gappedArchive (onReset gappedArchive)) := by
  refine ⟨⟨numberedTask_readable _ _, rfl, ?_⟩, ⟨numberedTask_readable _ _, rfl, ?_⟩,
    numberedTask_readable _ _, rfl, ?_⟩
  · exact @not_ends_of_crank _ _ _ cutArchive _ _ 1 _ _ rfl
  · exact @not_ends_of_crank _ _ _ doubledArchive _ _ 2 _ _ rfl
  · exact @not_ends_of_crank _ _ _ gappedArchive _ _ 2 _ _ rfl

end Archive

end ViiCore.Catchup
