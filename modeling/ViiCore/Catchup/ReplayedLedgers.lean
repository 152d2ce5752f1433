import ViiCore.Catchup.ApplyLedgerChainWork
import ViiCore.Catchup.VerifiedChain

/-!
What a replay closes.

Whatever the files hold, a ledger is closed only on top of the last closed one, and every run either
takes an entry from the file of headers or goes on to the next checkpoint. The checkpoints come round
again in 32 bits, so the work ends because the files of some checkpoint are not there.
-/

namespace ViiCore.Catchup

open ViiCore.Execution ViiCore.Herder ViiCore.LedgerManager ViiCore.Transactions

variable {platform : DriverPlatform}

/-! ### Closed ledgers -/

def ReplayTask.Lists (task : ReplayTask platform) (hHeader : HeaderEntry) : Prop :=
  ∃ checkpoint file, task.headers checkpoint = some file ∧ hHeader ∈ file.entries

structure ClosedLedger.Follows (closed : ClosedLedger platform) : Prop where
  number : closed.hHeader.header.ledgerSeq.toNat = closed.before.header.ledgerSeq.toNat + 1
  closedNumber : closed.after.header.ledgerSeq = closed.hHeader.header.ledgerSeq
  previous : closed.hHeader.header.previousLedgerHash = closed.before.hash
  contents : closed.txSet.getContentsHash.2 = closed.hHeader.header.scpValue.txSetHash

/-- Ledgers that were closed one after the other, from one last closed ledger to another. -/
def Chained : HeaderEntry → List (ClosedLedger platform) → HeaderEntry → Prop
  | first, [], last => first = last
  | first, closed :: rest, last => closed.before = first ∧ Chained closed.after rest last

theorem Chained.concat {first last : HeaderEntry} {closed : List (ClosedLedger platform)}
    (chained : Chained first closed last) (next : ClosedLedger platform)
    (continues : next.before = last) : Chained first (closed ++ [next]) next.after := by
  induction closed generalizing first with
  | nil => exact ⟨continues.trans chained.symm, rfl⟩
  | cons head tail ih => exact ⟨chained.1, ih chained.2⟩

theorem Chained.numbers {first last : HeaderEntry} {closed : List (ClosedLedger platform)}
    (chained : Chained first closed last) (follows : ∀ next ∈ closed, next.Follows) :
    closed.map (fun next => next.hHeader.header.ledgerSeq.toNat) =
        List.range' (first.header.ledgerSeq.toNat + 1) closed.length ∧
      last.header.ledgerSeq.toNat = first.header.ledgerSeq.toNat + closed.length := by
  induction closed generalizing first with
  | nil =>
      have same : first = last := chained
      rw [same]
      exact ⟨rfl, rfl⟩
  | cons head tail ih =>
      obtain ⟨continues, chainedTail⟩ := chained
      have here := follows head List.mem_cons_self
      have number := here.number
      rw [continues] at number
      have later := ih chainedTail fun next member => follows next (List.mem_cons_of_mem _ member)
      rw [here.closedNumber, number] at later
      constructor
      · rw [List.map_cons, later.1, number, List.length_cons, List.range'_succ]
      · rw [later.2, List.length_cons]
        omega

theorem getContentsHash_again (txSet : TxSetFrame platform.toSetPlatform) :
    txSet.getContentsHash.1.getContentsHash.2 = txSet.getContentsHash.2 := by
  unfold TxSetFrame.getContentsHash
  cases known : txSet.mHash with
  | none => rfl
  | some hash =>
      dsimp only
      rw [known]

namespace ApplyLedgerChainWork

variable (task : ReplayTask platform)

/-! ### One header -/

structure Applies (hHeader : HeaderEntry) (work after : ApplyLedgerChainWork platform) : Prop where
  mHdrIn : after.mHdrIn = work.mHdrIn
  mCurrSeq : after.mCurrSeq = work.mCurrSeq
  mFilesOpen : after.mFilesOpen = work.mFilesOpen
  closes : (after.closed = work.closed ∧ after.lm = work.lm) ∨
    ∃ closed : ClosedLedger platform, closed.Follows ∧ closed.hHeader = hHeader ∧
      closed.before = work.lm.mLastClosedLedger ∧ closed.after = after.lm.mLastClosedLedger ∧
      after.closed = work.closed ++ [closed]

def Agrees (hHeader : HeaderEntry) (work after : ApplyLedgerChainWork platform) : Prop :=
  after.closed = work.closed ∨ after.lm.mLastClosedLedger.hash = hHeader.hash

variable {task} {work : ApplyLedgerChainWork platform} {hHeader : HeaderEntry}

theorem Applies.refl : Applies hHeader work work := ⟨rfl, rfl, rfl, Or.inl ⟨rfl, rfl⟩⟩

theorem getCurrentTxSet_reads :
    wp getCurrentTxSet
      (fun _ after => ∃ mTxHistoryEntry mTxIn, after = { work with mTxHistoryEntry, mTxIn })
      (fun _ after => after = work) work := by
  unfold getCurrentTxSet
  simp only [wp_bind, wp_get]
  cases findTxSet (work.lm.mLastClosedLedger.header.ledgerSeq + 1) work.mTxIn.malformed
      work.mTxHistoryEntry work.mTxIn.entries with
  | error fault => rfl
  | ok result =>
      obtain ⟨found, mTxHistoryEntry, mTxIn⟩ := result
      cases found with
      | none => exact ⟨mTxHistoryEntry, mTxIn, rfl⟩
      | some txSet => exact ⟨mTxHistoryEntry, mTxIn, rfl⟩

theorem closeLedger_next {closed : List (ClosedLedger platform)} {lm after : ClosedLedgers platform}
    {txSet : TxSetFrame platform.toSetPlatform} {value : VIIValue}
    (ran : closeLedger task closed lm txSet value = .ok after) :
    after.mLastClosedLedger.header.ledgerSeq = lm.mLastClosedLedger.header.ledgerSeq + 1 := by
  obtain ⟨ledger, closes, made⟩ := except_bind_ok.mp ran
  have number := closeExternalized_ledgerSeq lm.node closes
  cases made
  dsimp only
  rw [number, lm.sameSeq]
  apply UInt32.toNat_inj.mp
  simp only [UInt32.toNat_ofNat', UInt32.toNat_add, UInt32.reduceToNat]
  omega

theorem applyLedger_applies
    (number : hHeader.header.ledgerSeq = work.lm.mLastClosedLedger.header.ledgerSeq + 1)
    (noWrap : hHeader.header.ledgerSeq.toNat =
      work.lm.mLastClosedLedger.header.ledgerSeq.toNat + 1)
    (previous : hHeader.header.previousLedgerHash = work.lm.mLastClosedLedger.hash) :
    wp (applyLedger task hHeader)
      (fun _ after => Applies hHeader work after ∧ Agrees hHeader work after)
      (fun _ after => Applies hHeader work after) work := by
  unfold applyLedger
  rw [wp_bind]
  apply wp_mono getCurrentTxSet_reads
  · intro txset middle ⟨mTxHistoryEntry, mTxIn, read⟩
    subst read
    dsimp only
    by_cases contents : hHeader.header.scpValue.txSetHash = txset.getContentsHash.2
    · rw [if_neg (not_not.mpr contents)]
      simp only [wp_bind, wp_get]
      cases ran : closeLedger task work.closed work.lm txset.getContentsHash.1
          hHeader.header.scpValue with
      | error fault => exact ⟨rfl, rfl, rfl, Or.inl ⟨rfl, rfl⟩⟩
      | ok lm =>
          have follows : ClosedLedger.Follows ⟨hHeader, txset.getContentsHash.1,
              work.lm.mLastClosedLedger, lm.mLastClosedLedger⟩ :=
            ⟨noWrap, (closeLedger_next ran).trans number.symm, previous,
              (getContentsHash_again txset).trans contents.symm⟩
          simp only [wp_bind, wp_set]
          by_cases same : lm.mLastClosedLedger.hash = hHeader.hash
          · rw [if_neg (not_not.mpr same)]
            exact ⟨⟨rfl, rfl, rfl, Or.inr ⟨_, follows, rfl, rfl, rfl, rfl⟩⟩, Or.inr same⟩
          · rw [if_pos same]
            exact ⟨rfl, rfl, rfl, Or.inr ⟨_, follows, rfl, rfl, rfl, rfl⟩⟩
    · rw [if_pos contents]
      exact ⟨rfl, rfl, rfl, Or.inl ⟨rfl, rfl⟩⟩
  · intro fault after same
    rw [same]
    exact Applies.refl

theorem applyHeader_applies :
    wp (applyHeader task hHeader)
      (fun _ after => Applies hHeader work after ∧ Agrees hHeader work after)
      (fun _ after => Applies hHeader work after) work := by
  have kept : Applies hHeader work work ∧ Agrees hHeader work work := ⟨Applies.refl, Or.inl rfl⟩
  unfold applyHeader
  simp only [wp_bind, wp_get]
  split
  · exact kept
  · rename_i notOld
    split
    · split
      · exact kept.1
      · exact kept
    · split
      · split
        · exact kept.1
        · exact kept
      · split
        · exact kept.1
        · rename_i next
          split
          · exact kept.1
          · rename_i previous
            have number := not_not.mp next
            apply applyLedger_applies number _ (not_not.mp previous)
            -- a number that has wrapped around is skipped as an old one
            rw [number] at notOld ⊢
            simp only [UInt32.lt_iff_toNat_lt, UInt32.toNat_add, UInt32.reduceToNat] at notOld ⊢
            omega

/-! ### One run -/

theorem readHeader_reads :
    wp readHeader
      (fun result after => match result with
        | none => after = work
        | some hHeader => ∃ entries, work.mHdrIn.entries = hHeader :: entries ∧
            after = { work with mHdrIn := { work.mHdrIn with entries } })
      (fun _ after => after = work) work := by
  unfold readHeader
  simp only [wp_bind, wp_get]
  cases entries : work.mHdrIn.entries with
  | nil =>
      by_cases malformed : work.mHdrIn.malformed = true
      · simp only [malformed, if_true]
        rfl
      · simp only [malformed]
        rfl
  | cons hHeader rest => exact ⟨rest, rfl, rfl⟩

structure Replayed (task : ReplayTask platform) (start : HeaderEntry)
    (work : ApplyLedgerChainWork platform) : Prop where
  chained : Chained start work.closed work.lm.mLastClosedLedger
  follows : ∀ closed ∈ work.closed, closed.Follows ∧ task.Lists closed.hHeader
  listed : ∀ hHeader ∈ work.mHdrIn.entries, task.Lists hHeader

def AllAgree (work : ApplyLedgerChainWork platform) : Prop :=
  ∀ closed ∈ work.closed, closed.after.hash = closed.hHeader.hash

theorem Replayed.applies {start : HeaderEntry} {after : ApplyLedgerChainWork platform}
    (replayed : Replayed task start work) (listed : task.Lists hHeader)
    (applies : Applies hHeader work after) : Replayed task start after := by
  have headers : ∀ other ∈ after.mHdrIn.entries, task.Lists other := by
    rw [applies.mHdrIn]
    exact replayed.listed
  rcases applies.closes with ⟨same, sameLcl⟩ | ⟨closed, follows, ofHeader, before, last, added⟩
  · refine ⟨?_, ?_, headers⟩
    · rw [same, sameLcl]
      exact replayed.chained
    · rw [same]
      exact replayed.follows
  · refine ⟨?_, ?_, headers⟩
    · rw [added, ← last]
      exact replayed.chained.concat closed before
    · rw [added]
      intro other member
      rcases List.mem_append.mp member with earlier | here
      · exact replayed.follows other earlier
      · rw [List.mem_singleton.mp here, ofHeader]
        exact ⟨follows, listed⟩

theorem AllAgree.applies {after : ApplyLedgerChainWork platform} (agree : AllAgree work)
    (applies : Applies hHeader work after) (agrees : Agrees hHeader work after) :
    AllAgree after := by
  rcases applies.closes with ⟨same, _⟩ | ⟨closed, _, ofHeader, _, last, added⟩
  · unfold AllAgree
    rw [same]
    exact agree
  · intro other member
    rw [added] at member
    rcases List.mem_append.mp member with earlier | here
    · exact agree other earlier
    · rw [List.mem_singleton.mp here, ofHeader, last]
      rcases agrees with impossible | same
      · rw [added] at impossible
        simp at impossible
      · exact same

def Opens (task : ReplayTask platform) (work ready : ApplyLedgerChainWork platform) : Prop :=
  (work.mFilesOpen = true ∧ ready = work) ∨
    work.mFilesOpen = false ∧ ∃ mHdrIn mTxIn, task.headers work.mCurrSeq = some mHdrIn ∧
      task.transactions work.mCurrSeq = some mTxIn ∧
      ready = { work with mHdrIn, mTxIn, mTxHistoryEntry := noTransactions, mFilesOpen := true }

def withHeaders (work : ApplyLedgerChainWork platform) (entries : List HeaderEntry) :
    ApplyLedgerChainWork platform :=
  { work with mHdrIn := { work.mHdrIn with entries } }

def nextCheckpoint (task : ReplayTask platform) (work : ApplyLedgerChainWork platform) :
    ApplyLedgerChainWork platform :=
  { work with mCurrSeq := work.mCurrSeq + getCheckpointFrequency task.accelerated,
              mFilesOpen := false }

inductive Runs (task : ReplayTask platform) (work after : ApplyLedgerChainWork platform) : Prop
  | applied (ready : ApplyLedgerChainWork platform) (hHeader : HeaderEntry)
      (entries : List HeaderEntry) (opens : Opens task work ready)
      (read : ready.mHdrIn.entries = hHeader :: entries)
      (applies : Applies hHeader (ready.withHeaders entries) after)
      (agrees : Agrees hHeader (ready.withHeaders entries) after)
  | moved (ready : ApplyLedgerChainWork platform) (opens : Opens task work ready)
      (moves : after = nextCheckpoint task ready)

inductive Breaks (task : ReplayTask platform) (work after : ApplyLedgerChainWork platform) : Prop
  | unopened (same : after = work)
  | unread (opens : Opens task work after)
  | applied (ready : ApplyLedgerChainWork platform) (hHeader : HeaderEntry)
      (entries : List HeaderEntry) (opens : Opens task work ready)
      (read : ready.mHdrIn.entries = hHeader :: entries)
      (applies : Applies hHeader (ready.withHeaders entries) after)

theorem openCurrentInputFiles_opens (closed : work.mFilesOpen = false) :
    wp (openCurrentInputFiles task) (fun _ ready => Opens task work ready)
      (fun _ after => after = work) work := by
  unfold openCurrentInputFiles
  simp only [wp_bind, wp_get]
  cases headers : task.headers work.mCurrSeq with
  | none => rfl
  | some mHdrIn =>
      simp only [openFile, wp_pure]
      cases transactions : task.transactions work.mCurrSeq with
      | none => rfl
      | some mTxIn => exact Or.inr ⟨closed, mHdrIn, mTxIn, headers, transactions, rfl⟩

theorem readAndApply_runs {ready : ApplyLedgerChainWork platform} (opens : Opens task work ready) :
    wp (do
        if ¬ (← applyHistoryOfSingleLedger task) then
          modify fun work =>
            { work with mCurrSeq := work.mCurrSeq + getCheckpointFrequency task.accelerated,
                        mFilesOpen := false })
      (fun _ after => Runs task work after) (fun _ after => Breaks task work after) ready := by
  unfold applyHistoryOfSingleLedger
  rw [wp_bind, wp_bind]
  apply wp_mono readHeader_reads
  · intro result middle read
    cases result with
    | none =>
        rw [read]
        exact Runs.moved ready opens rfl
    | some hHeader =>
        obtain ⟨entries, listed, reading⟩ := read
        rw [reading]
        simp only [wp_bind]
        apply wp_mono (@applyHeader_applies platform task (ready.withHeaders entries) hHeader)
        · rintro _ after ⟨applies, agrees⟩
          exact Runs.applied ready hHeader entries opens listed applies agrees
        · intro fault after applies
          exact Breaks.applied ready hHeader entries opens listed applies
  · intro fault after same
    rw [same]
    exact Breaks.unread opens

theorem runOnce_runs :
    wp (runOnce task) (fun _ after => Runs task work after) (fun _ after => Breaks task work after)
      work := by
  unfold runOnce
  simp only [wp_bind, wp_get]
  by_cases isOpen : work.mFilesOpen = true
  · rw [if_neg (not_not.mpr isOpen)]
    exact readAndApply_runs (Or.inl ⟨isOpen, rfl⟩)
  · rw [if_pos isOpen, wp_bind]
    apply wp_mono (openCurrentInputFiles_opens (Bool.eq_false_iff.mpr isOpen))
    · intro _ ready opens
      exact readAndApply_runs opens
    · intro fault after same
      exact Breaks.unopened same

/-! ### All runs -/

section Runs

variable {start : HeaderEntry} {after ready : ApplyLedgerChainWork platform}

theorem Replayed.opens (replayed : Replayed task start work) (opens : Opens task work ready) :
    Replayed task start ready ∧ ready.closed = work.closed := by
  rcases opens with ⟨_, same⟩ | ⟨_, mHdrIn, mTxIn, headers, _, made⟩
  · rw [same]
    exact ⟨replayed, rfl⟩
  · rw [made]
    exact ⟨⟨replayed.chained, replayed.follows,
      fun hHeader member => ⟨work.mCurrSeq, mHdrIn, headers, member⟩⟩, rfl⟩

theorem Replayed.reads (replayed : Replayed task start ready) {entries : List HeaderEntry}
    (read : ready.mHdrIn.entries = hHeader :: entries) :
    Replayed task start (ready.withHeaders entries) ∧ task.Lists hHeader := by
  have listed := replayed.listed
  rw [read] at listed
  exact ⟨⟨replayed.chained, replayed.follows,
    fun other member => listed other (List.mem_cons_of_mem _ member)⟩,
    listed hHeader List.mem_cons_self⟩

theorem Replayed.runs (replayed : Replayed task start work) (runs : Runs task work after) :
    Replayed task start after ∧ (AllAgree work → AllAgree after) := by
  cases runs with
  | applied ready hHeader entries opens read applies agrees =>
      obtain ⟨opened, same⟩ := replayed.opens opens
      obtain ⟨reading, listed⟩ := opened.reads read
      refine ⟨reading.applies listed applies, ?_⟩
      intro agree
      have before : AllAgree (ready.withHeaders entries) := by
        unfold AllAgree withHeaders
        rw [same]
        exact agree
      exact before.applies applies agrees
  | moved ready opens moves =>
      obtain ⟨opened, same⟩ := replayed.opens opens
      rw [moves]
      refine ⟨⟨opened.chained, opened.follows, opened.listed⟩, ?_⟩
      intro agree
      unfold AllAgree nextCheckpoint
      rw [same]
      exact agree

theorem Replayed.breaks (replayed : Replayed task start work) (breaks : Breaks task work after) :
    Replayed task start after := by
  cases breaks with
  | unopened same =>
      rw [same]
      exact replayed
  | unread opens => exact (replayed.opens opens).1
  | applied ready hHeader entries opens read applies =>
      obtain ⟨reading, listed⟩ := (replayed.opens opens).1.reads read
      exact reading.applies listed applies

structure Reports (task : ReplayTask platform) (start : HeaderEntry) (state : WorkState)
    (work : ApplyLedgerChainWork platform) : Prop where
  replayed : Replayed task start work
  agree : state ≠ .WORK_FAILURE → AllAgree work
  arrived : state = .WORK_SUCCESS →
    work.lm.mLastClosedLedger.header.ledgerSeq = task.mRange.mLast

theorem onRun_reports (replayed : Replayed task start work) (agree : AllAgree work) :
    wp (onRun task) (fun state after => Reports task start state after)
      (fun _ after => Replayed task start after) work := by
  have ran := @runOnce_runs platform task work
  unfold wp at ran ⊢
  unfold onRun
  cases outcome : runOnce task work with
  | ok _ after =>
      rw [outcome] at ran
      obtain ⟨still, agreeing⟩ := replayed.runs ran
      dsimp only
      by_cases arrived : after.lm.mLastClosedLedger.header.ledgerSeq = task.mRange.mLast
      · rw [if_pos arrived]
        exact ⟨still, fun _ => agreeing agree, fun _ => arrived⟩
      · rw [if_neg arrived]
        exact ⟨still, fun _ => agreeing agree, fun impossible => by cases impossible⟩
  | error fault after =>
      rw [outcome] at ran
      have still := replayed.breaks ran
      dsimp only
      by_cases caught : fault.isException = true
      · rw [if_pos caught]
        exact ⟨still, fun impossible => absurd rfl impossible, fun impossible => by
          cases impossible⟩
      · rw [if_neg caught]
        exact still

theorem crank_reports (runs : Nat) (replayed : Replayed task start work) (agree : AllAgree work) :
    wp (crank task runs) (fun state after => Reports task start state after)
      (fun _ after => Replayed task start after) work := by
  induction runs generalizing work with
  | zero => exact ⟨replayed, fun _ => agree, fun impossible => by cases impossible⟩
  | succ runs ih =>
      unfold crank
      rw [wp_bind]
      apply wp_mono (onRun_reports replayed agree)
      · intro state after reports
        cases state with
        | WORK_RUNNING => exact ih reports.replayed (reports.agree (by simp))
        | WORK_SUCCESS => exact reports
        | WORK_FAILURE => exact reports
      · intro _ after still
        exact still

end Runs

/-! ### The end of the work -/

section Ends

/-- A fault that `onRun` does not catch counts as the end of the work too: it ends the program. -/
def Finished : EStateM.Result ReplayFault (ApplyLedgerChainWork platform) WorkState → Prop
  | .ok .WORK_RUNNING _ => False
  | _ => True

def Ends (task : ReplayTask platform) (work : ApplyLedgerChainWork platform) : Prop :=
  ∃ runs, Finished (crank task runs work)

def Missing (task : ReplayTask platform) (checkpoint : UInt32) : Prop :=
  task.headers checkpoint = none ∨ task.transactions checkpoint = none

def MissingAfter (task : ReplayTask platform) : Nat → UInt32 → Prop
  | 0, mCurrSeq => Missing task mCurrSeq
  | ahead + 1, mCurrSeq =>
      MissingAfter task ahead (mCurrSeq + getCheckpointFrequency task.accelerated)

theorem ends_of_next (next : ∀ after, Runs task work after → Ends task after) : Ends task work := by
  have ran := @runOnce_runs platform task work
  unfold wp at ran
  cases outcome : runOnce task work with
  | ok _ after =>
      rw [outcome] at ran
      by_cases arrived : after.lm.mLastClosedLedger.header.ledgerSeq = task.mRange.mLast
      · have done : onRun task work = .ok .WORK_SUCCESS after := by
          unfold onRun
          rw [outcome]
          exact if_pos arrived
        refine ⟨1, ?_⟩
        unfold crank
        rw [bind_of_ok done]
        trivial
      · have running : onRun task work = .ok .WORK_RUNNING after := by
          unfold onRun
          rw [outcome]
          exact if_neg arrived
        obtain ⟨runs, finished⟩ := next after ran
        refine ⟨runs + 1, ?_⟩
        unfold crank
        rw [bind_of_ok running]
        exact finished
  | error fault after =>
      refine ⟨1, ?_⟩
      unfold crank
      by_cases caught : fault.isException = true
      · have done : onRun task work = .ok .WORK_FAILURE after := by
          unfold onRun
          rw [outcome]
          exact if_pos caught
        rw [bind_of_ok done]
        trivial
      · have thrown : onRun task work = .error fault after := by
          unfold onRun
          rw [outcome]
          exact if_neg caught
        rw [bind_of_error thrown]
        trivial

theorem ends_of_missing (closed : work.mFilesOpen = false)
    (missing : Missing task work.mCurrSeq) : Ends task work := by
  have unopened : ∀ ready, ¬ Opens task work ready := by
    intro ready opens
    rcases opens with ⟨isOpen, _⟩ | ⟨_, mHdrIn, mTxIn, headers, transactions, _⟩
    · rw [closed] at isOpen
      cases isOpen
    · rcases missing with none | none
      · rw [headers] at none
        cases none
      · rw [transactions] at none
        cases none
  apply ends_of_next
  intro after runs
  cases runs with
  | applied ready hHeader entries opens read applies agrees => exact absurd opens (unopened ready)
  | moved ready opens moves => exact absurd opens (unopened ready)

theorem ends_of_open {ahead : Nat}
    (closedEnds : ∀ work : ApplyLedgerChainWork platform, work.mFilesOpen = false →
      MissingAfter task ahead work.mCurrSeq → Ends task work)
    {entries : List HeaderEntry} (left : work.mHdrIn.entries = entries)
    (isOpen : work.mFilesOpen = true) (missing : MissingAfter task (ahead + 1) work.mCurrSeq) :
    Ends task work := by
  have stays : ∀ ready, Opens task work ready → ready = work := by
    intro ready opens
    rcases opens with ⟨_, same⟩ | ⟨closed, _⟩
    · exact same
    · rw [isOpen] at closed
      cases closed
  induction entries generalizing work with
  | nil =>
      apply ends_of_next
      intro after runs
      cases runs with
      | applied ready hHeader entries opens read applies agrees =>
          rw [stays ready opens, left] at read
          cases read
      | moved ready opens moves =>
          rw [stays ready opens] at moves
          rw [moves]
          exact closedEnds (nextCheckpoint task work) rfl missing
  | cons first rest ih =>
      apply ends_of_next
      intro after runs
      cases runs with
      | applied ready hHeader entries opens read applies agrees =>
          have same := stays ready opens
          subst same
          rw [left] at read
          have later : after.mHdrIn.entries = rest := by
            rw [applies.mHdrIn]
            exact (List.cons.inj read).2.symm
          have stillOpen : after.mFilesOpen = true := applies.mFilesOpen.trans isOpen
          apply ih later stillOpen
          · rw [applies.mCurrSeq]
            exact missing
          · intro reopened opens
            rcases opens with ⟨_, same⟩ | ⟨closed, _⟩
            · exact same
            · rw [stillOpen] at closed
              cases closed
      | moved ready opens moves =>
          rw [stays ready opens] at moves
          rw [moves]
          exact closedEnds (nextCheckpoint task work) rfl missing

theorem ends_of_closed (ahead : Nat) (closed : work.mFilesOpen = false)
    (missing : MissingAfter task ahead work.mCurrSeq) : Ends task work := by
  induction ahead generalizing work with
  | zero => exact ends_of_missing closed missing
  | succ ahead ih =>
      apply ends_of_next
      intro after runs
      have opened : ∀ ready, Opens task work ready →
          ready.mCurrSeq = work.mCurrSeq ∧ ready.mFilesOpen = true := by
        intro ready opens
        rcases opens with ⟨isOpen, _⟩ | ⟨_, _, _, _, _, made⟩
        · rw [closed] at isOpen
          cases isOpen
        · rw [made]
          exact ⟨rfl, rfl⟩
      cases runs with
      | applied ready hHeader entries opens read applies agrees =>
          obtain ⟨sameSeq, isOpen⟩ := opened ready opens
          apply ends_of_open (fun other => ih) rfl (applies.mFilesOpen.trans isOpen)
          rw [applies.mCurrSeq]
          change MissingAfter task (ahead + 1) ready.mCurrSeq
          rw [sameSeq]
          exact missing
      | moved ready opens moves =>
          rw [moves]
          apply ih rfl
          change MissingAfter task ahead (ready.mCurrSeq + _)
          rw [(opened ready opens).1]
          exact missing

theorem missingAfter_of_eq {ahead : Nat} {mCurrSeq checkpoint : UInt32}
    (missing : Missing task checkpoint)
    (reached : (mCurrSeq.toNat + ahead * (getCheckpointFrequency task.accelerated).toNat) % 2 ^ 32 =
      checkpoint.toNat) : MissingAfter task ahead mCurrSeq := by
  induction ahead generalizing mCurrSeq with
  | zero =>
      have same : mCurrSeq = checkpoint := by
        apply UInt32.toNat_inj.mp
        rw [Nat.zero_mul, Nat.add_zero, Nat.mod_eq_of_lt mCurrSeq.toNat_lt] at reached
        exact reached
      rw [same]
      exact missing
  | succ ahead ih =>
      apply ih
      rw [UInt32.toNat_add, Nat.mod_add_mod, ← reached, Nat.succ_mul]
      congr 1
      omega

/-- Checkpoints differ by multiples of the frequency, also across the end of the numbers. -/
theorem onReset_ends (lm : ClosedLedgers platform) {checkpoint : UInt32}
    (isCheckpoint : (checkpoint.toNat + 1) % (getCheckpointFrequency task.accelerated).toNat = 0)
    (missing : Missing task checkpoint) : Ends task (onReset task lm) := by
  have first := checkpointContainingLedger_mod task.accelerated task.mRange.mFirst
  have below := checkpoint.toNat_lt
  have firstBelow := (checkpointContainingLedger task.accelerated task.mRange.mFirst).toNat_lt
  apply ends_of_closed
    ((checkpoint.toNat + 2 ^ 32 -
      (checkpointContainingLedger task.accelerated task.mRange.mFirst).toNat) /
        (getCheckpointFrequency task.accelerated).toNat) rfl
  apply missingAfter_of_eq missing
  change ((checkpointContainingLedger task.accelerated task.mRange.mFirst).toNat + _) % 2 ^ 32 = _
  unfold getCheckpointFrequency at isCheckpoint first ⊢
  generalize task.accelerated = accelerated at *
  cases accelerated with
  | true =>
      simp only [if_true, UInt32.reduceToNat] at isCheckpoint first ⊢
      omega
  | false =>
      simp only [Bool.false_eq_true, if_false, UInt32.reduceToNat] at isCheckpoint first ⊢
      omega

end Ends

/-! ### The replay as a whole -/

/-- Ledgers are closed in order and as their headers say, a work that succeeds has closed all of
them, and the work ends when some checkpoint lacks a file. -/
theorem crank_replays (task : ReplayTask platform) (lm : ClosedLedgers platform) :
    (∀ checkpoint : UInt32,
      (checkpoint.toNat + 1) % (getCheckpointFrequency task.accelerated).toNat = 0 →
        Missing task checkpoint → Ends task (onReset task lm)) ∧
    (∀ runs,
      let after := finalState (crank task runs) (onReset task lm)
      Chained lm.mLastClosedLedger after.closed after.lm.mLastClosedLedger ∧
        ∀ closed ∈ after.closed, closed.Follows ∧ task.Lists closed.hHeader) ∧
    ∀ runs after, crank task runs (onReset task lm) = .ok .WORK_SUCCESS after →
      let first := lm.mLastClosedLedger.header.ledgerSeq.toNat
      after.lm.mLastClosedLedger.header.ledgerSeq = task.mRange.mLast ∧
        after.closed.map (fun closed => closed.hHeader.header.ledgerSeq.toNat) =
          List.range' (first + 1) (task.mRange.mLast.toNat - first) ∧
        ∀ closed ∈ after.closed, closed.after.hash = closed.hHeader.hash := by
  have start : Replayed task lm.mLastClosedLedger (onReset task lm) := by
    refine ⟨rfl, ?_, ?_⟩
    · intro closed impossible
      cases impossible
    · intro hHeader impossible
      cases impossible
  have agree : AllAgree (onReset task lm) := by
    intro closed impossible
    cases impossible
  refine ⟨fun checkpoint => onReset_ends lm, ?_, ?_⟩
  · intro runs
    have reports := crank_reports runs start agree
    unfold wp at reports
    unfold finalState
    cases outcome : crank task runs (onReset task lm) with
    | ok state after =>
        rw [outcome] at reports
        exact ⟨reports.replayed.chained, reports.replayed.follows⟩
    | error fault after =>
        rw [outcome] at reports
        exact ⟨reports.chained, reports.follows⟩
  · intro runs after succeeded
    have reports := (wp_of_ok succeeded).mp (crank_reports runs start agree)
    have arrived := reports.arrived rfl
    obtain ⟨numbers, last⟩ := reports.replayed.chained.numbers fun closed member =>
      (reports.replayed.follows closed member).1
    rw [arrived] at last
    have count : after.closed.length =
        task.mRange.mLast.toNat - lm.mLastClosedLedger.header.ledgerSeq.toNat := by
      omega
    rw [count] at numbers
    exact ⟨arrived, numbers, reports.agree (by simp)⟩

/-! ### A node at ledger 5 -/

def replayedHeader (ledgerSeq : UInt32) (hash previousLedgerHash txSetHash : Hash)
    (closeTime : UInt64) : HeaderEntry :=
  { hash
    header := { ledgerVersion := 11, previousLedgerHash, ledgerSeq
                rest := { txSetHash, closeTime, upgrades := ⟨[], by decide⟩
                          ext := .VII_VALUE_BASIC } } }

def soloClosed : ClosedLedgers soloDriverPlatform where
  node := { soloDriver with lclHash := 500 }
  mLastClosedLedger := replayedHeader 5 500 400 0 50
  sameHash := rfl
  sameSeq := rfl

/-- Hashes of headers that tell the number of the ledger and the set that was applied. -/
def archiveOf (headers : UInt32 → Option (List HeaderEntry))
    (transactions : List TransactionHistoryEntry) (mRange : LedgerRange) :
    ReplayTask soloDriverPlatform where
  accelerated := false
  headers checkpoint := (headers checkpoint).map fun entries => ⟨entries, false⟩
  transactions _ := some ⟨transactions, false⟩
  mRange
  ledgerHash closed _ value := BitVec.ofNat 256 (100 * (closed.length + 6)) + value.txSetHash

def endlessArchive : ReplayTask soloDriverPlatform :=
  archiveOf (fun _ => some []) [] ⟨6, 7, by decide, by decide⟩

/-- The work goes round the checkpoints for ever. -/
theorem endlessArchive_endless : ¬ Ends endlessArchive (onReset endlessArchive soloClosed) := by
  have endless : ∀ (runs : Nat) (work : ApplyLedgerChainWork soloDriverPlatform),
      work.lm = soloClosed → work.mFilesOpen = false →
        ¬ Finished (crank endlessArchive runs work) := by
    intro runs
    induction runs with
    | zero =>
        intro work _ _ finished
        exact finished
    | succ runs ih =>
        intro work sameLm closed
        obtain ⟨lm, closedLedgers, mCurrSeq, mHdrIn, mTxIn, entry, mFilesOpen, mLastApplied⟩ := work
        subst sameLm
        subst closed
        exact ih { lm := soloClosed, closed := closedLedgers, mCurrSeq := mCurrSeq + 64,
                   mHdrIn := ⟨[], false⟩, mTxIn := ⟨[], false⟩, mTxHistoryEntry := noTransactions,
                   mFilesOpen := false, mLastApplied } rfl rfl
  intro ⟨runs, finished⟩
  exact endless runs (onReset endlessArchive soloClosed) rfl rfl finished

/-- One file of headers, with the last closed ledger, its predecessor and three more, of which the
second has no transactions. -/
def replayArchive : ReplayTask soloDriverPlatform :=
  archiveOf
    (fun checkpoint => if checkpoint = 63 then
        some [replayedHeader 4 400 300 0 40, replayedHeader 5 500 400 0 50,
          replayedHeader 6 615 500 15 60, replayedHeader 7 700 615 0 70,
          replayedHeader 8 809 700 9 80]
      else none)
    [⟨6, ⟨500, [signedTransaction 7 4, signedTransaction 8 5]⟩⟩,
      ⟨8, ⟨700, [signedTransaction 9 6]⟩⟩]
    ⟨4, 8, by decide, by decide⟩

theorem crank_replays_three : Ends replayArchive (onReset replayArchive soloClosed) ∧
    ∃ after, crank replayArchive 5 (onReset replayArchive soloClosed) = .ok .WORK_SUCCESS after ∧
      after.closed.map (fun closed => closed.hHeader.header.ledgerSeq.toNat) = [6, 7, 8] ∧
      after.closed.map (fun closed => (closed.after.hash, closed.txSet.mTransactions.length)) =
        [(615, 2), (700, 0), (809, 1)] := by
  obtain ⟨ends, _, succeeds⟩ := crank_replays replayArchive soloClosed
  refine ⟨ends 127 (by decide) (Or.inl rfl), ?_⟩
  have success : (match crank replayArchive 5 (onReset replayArchive soloClosed) with
      | .ok state after => decide (state = .WORK_SUCCESS ∧
          after.closed.map (fun closed => (closed.after.hash, closed.txSet.mTransactions.length)) =
            [(615, 2), (700, 0), (809, 1)])
      | .error _ _ => false) = true := by
    decide +kernel
  split at success
  · rename_i state after ran
    obtain ⟨rfl, applied⟩ := of_decide_eq_true success
    exact ⟨after, ran, (succeeds 5 after ran).2.1, applied⟩
  · cases success

end ApplyLedgerChainWork

end ViiCore.Catchup
