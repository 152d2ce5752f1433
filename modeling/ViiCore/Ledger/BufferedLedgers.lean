import Mathlib.Algebra.Group.Nat.Defs
import Mathlib.Data.List.Chain
import ViiCore.Ledger.CatchupStates

/-!
What holds while the ledger manager is out of sync.

In each state of catch-up it is known which ledgers are buffered, how they relate to the last
closed ledger, whether the work is there and whether the task is posted. Every event keeps this,
so that ledgers are closed one after the other and no assertion on these states can fail.
-/

namespace ViiCore.LedgerManager.CatchupStates

open ViiCore.Catchup (LedgerHeader LedgerHeaderHistoryEntry LedgerNumHashPair nextCheckpointLedger)
open ViiCore.Execution

variable {Hash Rest Value : Type}

def Small (ledgerSeq : UInt32) : Prop := ledgerSeq.toNat + 1 < 2 ^ 32

instance (ledgerSeq : UInt32) : Decidable (Small ledgerSeq) :=
  inferInstanceAs (Decidable (ledgerSeq.toNat + 1 < 2 ^ 32))

theorem Small.succ {ledgerSeq : UInt32} (small : Small ledgerSeq) :
    (ledgerSeq + 1).toNat = ledgerSeq.toNat + 1 := by
  unfold Small at small
  rw [UInt32.toNat_add]
  exact Nat.mod_eq_of_lt small

def Contiguous (chain : List (LedgerCloseData Hash Value)) : Prop :=
  chain.IsChain fun earlier later => earlier.mLedgerSeq.toNat + 1 = later.mLedgerSeq.toNat

def ClosedInOrder (closings : List Closing) : Prop :=
  ∀ closing ∈ closings, closing.ledgerSeq.toNat = closing.lastClosed.toNat + 1

inductive Phase (lm : Manager Hash Rest Value) : Prop
  | outOfCatchup (state : lm.mState ≠ .LM_CATCHING_UP_STATE) (catchup : lm.mCatchupState = .NONE)
      (nothing : lm.mSyncingLedgers = []) (work : lm.mCatchupWork = none) (posted : lm.posted = 0)
  | waitingForTriggerLedger (state : lm.mState = .LM_CATCHING_UP_STATE)
      (catchup : lm.mCatchupState = .WAITING_FOR_TRIGGER_LEDGER)
      (first : LedgerCloseData Hash Value) (later : List (LedgerCloseData Hash Value))
      (buffered : lm.mSyncingLedgers = first :: later)
      (ahead : lm.mLastClosedLedger.header.ledgerSeq.toNat + 1 < first.mLedgerSeq.toNat)
      (work : lm.mCatchupWork = none) (posted : lm.posted = 0)
  | applyingHistory (state : lm.mState = .LM_CATCHING_UP_STATE)
      (catchup : lm.mCatchupState = .APPLYING_HISTORY)
      (first : LedgerCloseData Hash Value) (later : List (LedgerCloseData Hash Value))
      (buffered : lm.mSyncingLedgers = first :: later)
      (configuration : CatchupConfiguration Hash) (work : lm.mCatchupWork = some configuration)
      (target : configuration.toLedger.toNat + 1 = first.mLedgerSeq.toNat) (posted : lm.posted = 0)
  | applyingBufferedLedgers (state : lm.mState = .LM_CATCHING_UP_STATE)
      (catchup : lm.mCatchupState = .APPLYING_BUFFERED_LEDGERS)
      (first : LedgerCloseData Hash Value) (later : List (LedgerCloseData Hash Value))
      (buffered : lm.mSyncingLedgers = first :: later)
      (next : lm.mLastClosedLedger.header.ledgerSeq.toNat + 1 = first.mLedgerSeq.toNat)
      (work : lm.mCatchupWork = none) (posted : lm.posted = 1)
  | waitingForClosingLedger (state : lm.mState = .LM_CATCHING_UP_STATE)
      (catchup : lm.mCatchupState = .WAITING_FOR_CLOSING_LEDGER)
      (nothing : lm.mSyncingLedgers = []) (work : lm.mCatchupWork = none) (posted : lm.posted = 0)

/-- What holds of what was closed and of what is buffered, in whatever state. -/
structure Orderly (lm : Manager Hash Rest Value) : Prop where
  contiguous : Contiguous lm.mSyncingLedgers
  closedInOrder : ClosedInOrder lm.closings

structure Sound (lm : Manager Hash Rest Value) : Prop extends Orderly lm where
  small : Small lm.mLastClosedLedger.header.ledgerSeq
  smallBuffered : ∀ lcd ∈ lm.mSyncingLedgers, Small lcd.mLedgerSeq
  phase : Phase lm

/-- The failures that are left: exceptions of the functions that are called, and the assertions
on what the work reports. -/
def Failure.isTolerated : Failure → Bool
  | .assertFailed function _ => function = .historyCaughtup
  | .runtimeError _ => true
  | .invalidArgument _ => false
  | .undefined => false

def Tolerated (failure : Failure) (lm : Manager Hash Rest Value) : Prop :=
  failure.isTolerated ∧ Orderly lm

abbrev KeepsSound (action : Managing Hash Rest Value Unit) (lm : Manager Hash Rest Value) : Prop :=
  wp action (fun _ after => Sound after) Tolerated lm

/-! ### Assertions and states -/

section Rules

variable {post : Unit → Manager Hash Rest Value → Prop}
  {fault : Failure → Manager Hash Rest Value → Prop} {lm : Manager Hash Rest Value}

theorem wp_assertThat {function : Function} {holds : Bool} {what : String} (is : holds = true) :
    wp (assertThat function holds what) post fault lm ↔ post () lm := by
  rw [is]
  exact Iff.rfl

theorem wp_setState_catchingUp :
    wp (setState .LM_CATCHING_UP_STATE) post fault lm ↔
      post () { lm with mState := .LM_CATCHING_UP_STATE } := by
  unfold setState
  rw [wp_modify]
  cases is : lm.mState with
  | LM_CATCHING_UP_STATE =>
      rw [if_neg (not_not_intro rfl), ← is]
  | _ => simp

theorem wp_setCatchupState (s : CatchupState) :
    wp (setCatchupState s) post fault lm ↔
      post () { lm with mCatchupState := s, mState := .LM_CATCHING_UP_STATE } := by
  unfold setCatchupState
  rw [wp_bind, wp_modify, wp_setState_catchingUp]

theorem wp_setState {s : State} (other : s ≠ .LM_CATCHING_UP_STATE)
    (consistent : lm.mState ≠ .LM_CATCHING_UP_STATE → lm.mCatchupState = .NONE) :
    wp (setState s) post fault lm ↔ post () { lm with mState := s, mCatchupState := .NONE } := by
  unfold setState
  rw [wp_modify]
  by_cases same : s = lm.mState
  · have nothing := consistent (same ▸ other)
    rw [if_neg (not_not_intro same), same, ← nothing]
  · rw [if_pos same, if_pos other]

end Rules

/-! ### The buffer -/

theorem push_contiguous {chain : List (LedgerCloseData Hash Value)} {lcd : LedgerCloseData Hash Value}
    (contiguous : Contiguous chain) (small : ∀ buffered ∈ chain, Small buffered.mLedgerSeq) :
    Contiguous (push chain lcd).2 := by
  unfold push
  cases last : chain.getLast? with
  | none => exact List.isChain_singleton lcd
  | some back =>
      have smallBack := small back (List.mem_of_getLast? last)
      simp only
      split
      · rename_i next
        apply List.isChain_append.mpr
        refine ⟨contiguous, List.isChain_singleton lcd, ?_⟩
        intro earlier isLast later isFirst
        rw [last] at isLast
        cases isLast
        cases isFirst
        rw [← next, smallBack.succ]
      · split <;> exact contiguous

theorem push_small {chain : List (LedgerCloseData Hash Value)} {lcd : LedgerCloseData Hash Value}
    (small : ∀ buffered ∈ chain, Small buffered.mLedgerSeq) (smallNew : Small lcd.mLedgerSeq) :
    ∀ buffered ∈ (push chain lcd).2, Small buffered.mLedgerSeq := by
  unfold push
  intro buffered member
  split at member
  · rw [List.mem_singleton.mp member]
    exact smallNew
  · split at member
    · rcases List.mem_append.mp member with old | new
      · exact small buffered old
      · rw [List.mem_singleton.mp new]
        exact smallNew
    · split at member <;> exact small buffered member

theorem push_cons (first : LedgerCloseData Hash Value) (later : List (LedgerCloseData Hash Value))
    (lcd : LedgerCloseData Hash Value) : ∃ rest, (push (first :: later) lcd).2 = first :: rest := by
  unfold push
  split
  · rename_i empty
    cases List.getLast?_eq_none_iff.mp empty
  · split
    · exact ⟨later ++ [lcd], rfl⟩
    · split <;> exact ⟨later, rfl⟩

/-! ### Closing a ledger -/

section Closing

variable [DecidableEq Hash] (env : Environment Hash Rest Value) {lm : Manager Hash Rest Value}

/-- A ledger is closed and is the last one then, or the call fails and nothing but its record is
left of it. -/
theorem closeLedger_spec (ledgerData : LedgerCloseData Hash Value) :
    wp (closeLedger env ledgerData)
      (fun _ after => ∃ last : LedgerHeaderHistoryEntry Hash Rest,
        last.header.ledgerSeq = lm.mLastClosedLedger.header.ledgerSeq + 1 ∧
        after = { lm with
          closings := ⟨ledgerData.mLedgerSeq, lm.mLastClosedLedger.header.ledgerSeq⟩ :: lm.closings
          mLastClosedLedger := last })
      (fun failure after => (∃ what, failure = .runtimeError what) ∧
        after = { lm with
          closings :=
            ⟨ledgerData.mLedgerSeq, lm.mLastClosedLedger.header.ledgerSeq⟩ :: lm.closings })
      lm := by
  unfold closeLedger
  simp only [wp_bind, wp_get, wp_set, wp_ite, wp_throw]
  refine ⟨fun _ => ⟨⟨_, rfl⟩, trivial⟩, fun _ => ⟨fun _ => ⟨⟨_, rfl⟩, trivial⟩, fun _ =>
    ⟨fun _ => ⟨⟨_, rfl⟩, trivial⟩, fun _ => ?_⟩⟩⟩
  cases env.apply lm.mLastClosedLedger ledgerData with
  | error what => exact ⟨⟨what, rfl⟩, rfl⟩
  | ok applied => exact ⟨_, rfl, rfl⟩

omit [DecidableEq Hash] in
theorem Orderly.closing (orderly : Orderly lm) {ledgerSeq : UInt32}
    (next : ledgerSeq.toNat = lm.mLastClosedLedger.header.ledgerSeq.toNat + 1) :
    Orderly { lm with
      closings := ⟨ledgerSeq, lm.mLastClosedLedger.header.ledgerSeq⟩ :: lm.closings } where
  contiguous := orderly.contiguous
  closedInOrder := by
    intro closing member
    rcases List.mem_cons.mp member with same | earlier
    · rw [same]
      exact next
    · exact orderly.closedInOrder closing earlier

/-- What `closeLedgerIf` leaves behind, by its result. -/
def CloseLedgerIfResult.Leaves (ledgerData : LedgerCloseData Hash Value)
    (lm after : Manager Hash Rest Value) : CloseLedgerIfResult → Prop
  | .CLOSED => ∃ last : LedgerHeaderHistoryEntry Hash Rest,
      last.header.ledgerSeq = ledgerData.mLedgerSeq ∧
      ledgerData.mLedgerSeq.toNat = lm.mLastClosedLedger.header.ledgerSeq.toNat + 1 ∧
      after = { lm with
        closings := ⟨ledgerData.mLedgerSeq, lm.mLastClosedLedger.header.ledgerSeq⟩ :: lm.closings
        mLastClosedLedger := last }
  | .TOO_OLD => after = lm
  | .TOO_NEW =>
      after = lm ∧ lm.mLastClosedLedger.header.ledgerSeq.toNat + 1 < ledgerData.mLedgerSeq.toNat

theorem closeLedgerIf_spec (orderly : Orderly lm)
    (small : Small lm.mLastClosedLedger.header.ledgerSeq) (ledgerData : LedgerCloseData Hash Value) :
    wp (closeLedgerIf env ledgerData) (fun result after => result.Leaves ledgerData lm after)
      Tolerated lm := by
  unfold closeLedgerIf
  simp only [wp_bind, wp_get, wp_ite]
  refine ⟨fun next => ⟨fun _ => ?_, fun _ => ⟨rfl, orderly⟩⟩, fun other => ⟨fun _ => rfl, fun newer => ?_⟩⟩
  · have above : ledgerData.mLedgerSeq.toNat = lm.mLastClosedLedger.header.ledgerSeq.toNat + 1 := by
      rw [← next, small.succ]
    apply wp_mono (closeLedger_spec env ledgerData)
    · rintro _ after ⟨last, number, is⟩
      exact ⟨last, number.trans next, above, is⟩
    · rintro failure after ⟨⟨what, thrown⟩, is⟩
      rw [thrown, is]
      exact ⟨rfl, orderly.closing above⟩
  · refine ⟨rfl, ?_⟩
    have beyond : lm.mLastClosedLedger.header.ledgerSeq.toNat < ledgerData.mLedgerSeq.toNat := by
      simpa [UInt32.le_iff_toNat_le] using newer
    have different : lm.mLastClosedLedger.header.ledgerSeq.toNat + 1 ≠ ledgerData.mLedgerSeq.toNat := by
      intro same
      apply other
      apply UInt32.toNat.inj
      rw [small.succ, same]
    omega

end Closing

/-! ### Values from consensus -/

section Values

variable (env : Environment Hash Rest Value) {lm : Manager Hash Rest Value}

theorem startCatchup_sound (orderly : Orderly lm)
    (small : Small lm.mLastClosedLedger.header.ledgerSeq)
    (smallBuffered : ∀ lcd ∈ lm.mSyncingLedgers, Small lcd.mLedgerSeq)
    (configuration : CatchupConfiguration Hash) (online : configuration.mMode = .ONLINE) {first : LedgerCloseData Hash Value}
    {later : List (LedgerCloseData Hash Value)} (buffered : lm.mSyncingLedgers = first :: later)
    (target : configuration.toLedger.toNat + 1 = first.mLedgerSeq.toNat)
    (ahead : lm.mLastClosedLedger.header.ledgerSeq.toNat + 1 < first.mLedgerSeq.toNat)
    (work : lm.mCatchupWork = none) (posted : lm.posted = 0) :
    KeepsSound (startCatchup configuration) lm := by
  have newer : ¬ (configuration.toLedger ≠ CURRENT ∧
      configuration.toLedger ≤ lm.mLastClosedLedger.header.ledgerSeq) := by
    rintro ⟨_, older⟩
    rw [UInt32.le_iff_toNat_le] at older
    omega
  unfold KeepsSound startCatchup
  simp only [wp_bind, wp_get]
  rw [if_neg newer]
  simp only [wp_bind, wp_setCatchupState, wp_get]
  rw [wp_assertThat (by simp [online, buffered])]
  unfold catchupHistory
  simp only [wp_bind, wp_get, work, Option.isSome_none, Bool.false_eq_true, if_false, wp_modify]
  exact ⟨⟨orderly.contiguous, orderly.closedInOrder⟩, small, smallBuffered,
    .applyingHistory rfl rfl first later buffered configuration rfl target posted⟩

theorem startCatchupIf_sound (sound : Sound lm) (buffered : lm.mSyncingLedgers ≠ [])
    (lastReceivedLedgerSeq : UInt32) :
    KeepsSound (startCatchupIf env lastReceivedLedgerSeq) lm := by
  unfold KeepsSound startCatchupIf
  simp only [wp_bind, wp_get]
  rw [wp_assertThat (by simp [buffered])]
  cases sound.phase with
  | outOfCatchup state catchup nothing work posted => exact absurd nothing buffered
  | waitingForClosingLedger state catchup nothing work posted => exact absurd nothing buffered
  | applyingHistory state catchup first later is configuration work target posted =>
      rw [wp_assertThat (by simp [catchup]), if_pos (by simp [catchup])]
      exact sound
  | applyingBufferedLedgers state catchup first later is next work posted =>
      rw [wp_assertThat (by simp [catchup]), if_pos (by simp [catchup])]
      exact sound
  | waitingForTriggerLedger state catchup first later is ahead work posted =>
      rw [wp_assertThat (by simp [catchup]), if_neg (by simp [catchup])]
      split
      · simp only [wp_bind, wp_setCatchupState, is, List.head?_cons]
        have before : (first.mLedgerSeq - 1).toNat + 1 = first.mLedgerSeq.toNat := by
          have one : (1 : UInt32) ≤ first.mLedgerSeq := by
            rw [UInt32.le_iff_toNat_le]
            change 1 ≤ first.mLedgerSeq.toNat
            omega
          rw [UInt32.toNat_sub_of_le _ _ one]
          change first.mLedgerSeq.toNat - 1 + 1 = first.mLedgerSeq.toNat
          omega
        apply startCatchup_sound
        · exact ⟨is ▸ sound.contiguous, sound.closedInOrder⟩
        · exact sound.small
        · exact is ▸ sound.smallBuffered
        · rfl
        · rfl
        · exact before
        · exact ahead
        · exact work
        · exact posted
      · exact sound

theorem addToSyncingLedgers_sound (sound : Sound lm) (buffered : lm.mSyncingLedgers ≠ [])
    {ledgerData : LedgerCloseData Hash Value} (small : Small ledgerData.mLedgerSeq) :
    Sound { lm with mSyncingLedgers := (push lm.mSyncingLedgers ledgerData).2 } ∧
      (push lm.mSyncingLedgers ledgerData).2 ≠ [] := by
  have contiguous : Contiguous (push lm.mSyncingLedgers ledgerData).2 :=
    push_contiguous sound.contiguous sound.smallBuffered
  have smallBuffered := push_small sound.smallBuffered small
  have head : ∀ first later, lm.mSyncingLedgers = first :: later →
      ∃ rest, (push lm.mSyncingLedgers ledgerData).2 = first :: rest := by
    intro first later is
    rw [is]
    exact push_cons first later ledgerData
  constructor
  · refine ⟨⟨contiguous, sound.closedInOrder⟩, sound.small, smallBuffered, ?_⟩
    cases sound.phase with
    | outOfCatchup state catchup nothing work posted => exact absurd nothing buffered
    | waitingForClosingLedger state catchup nothing work posted => exact absurd nothing buffered
    | waitingForTriggerLedger state catchup first later is ahead work posted =>
        obtain ⟨rest, pushed⟩ := head first later is
        exact .waitingForTriggerLedger state catchup first rest pushed ahead work posted
    | applyingHistory state catchup first later is configuration work target posted =>
        obtain ⟨rest, pushed⟩ := head first later is
        exact .applyingHistory state catchup first rest pushed configuration work target posted
    | applyingBufferedLedgers state catchup first later is next work posted =>
        obtain ⟨rest, pushed⟩ := head first later is
        exact .applyingBufferedLedgers state catchup first rest pushed next work posted
  · obtain ⟨first, later, is⟩ := List.exists_cons_of_ne_nil buffered
    obtain ⟨rest, pushed⟩ := head first later is
    rw [pushed]
    exact List.cons_ne_nil first rest

theorem continueCatchup_sound (sound : Sound lm) (catchingUp : lm.mState = .LM_CATCHING_UP_STATE)
    (buffered : lm.mSyncingLedgers ≠ []) {ledgerData : LedgerCloseData Hash Value}
    (small : Small ledgerData.mLedgerSeq) : KeepsSound (continueCatchup env ledgerData) lm := by
  obtain ⟨added, more⟩ := addToSyncingLedgers_sound sound buffered small
  unfold KeepsSound continueCatchup addToSyncingLedgers
  simp only [wp_bind, wp_get, wp_modify]
  rw [wp_assertThat (by simp [catchingUp])]
  exact startCatchupIf_sound env added more ledgerData.mLedgerSeq

theorem Sound.outOfCatchup (sound : Sound lm) (state : lm.mState ≠ .LM_CATCHING_UP_STATE) :
    lm.mCatchupState = .NONE ∧ lm.mSyncingLedgers = [] ∧ lm.mCatchupWork = none ∧ lm.posted = 0 := by
  cases sound.phase with
  | outOfCatchup _ catchup nothing work posted => exact ⟨catchup, nothing, work, posted⟩
  | waitingForTriggerLedger is => exact absurd is state
  | applyingHistory is => exact absurd is state
  | applyingBufferedLedgers is => exact absurd is state
  | waitingForClosingLedger is => exact absurd is state

theorem initializeCatchup_sound (sound : Sound lm) (state : lm.mState ≠ .LM_CATCHING_UP_STATE)
    {ledgerData : LedgerCloseData Hash Value} (small : Small ledgerData.mLedgerSeq)
    (ahead : lm.mLastClosedLedger.header.ledgerSeq.toNat + 1 < ledgerData.mLedgerSeq.toNat) :
    KeepsSound (initializeCatchup env ledgerData) lm := by
  obtain ⟨catchup, nothing, work, posted⟩ := sound.outOfCatchup state
  unfold KeepsSound initializeCatchup addToSyncingLedgers
  simp only [wp_bind, wp_get, wp_modify, wp_setState_catchingUp, wp_setCatchupState]
  rw [wp_assertThat (by simp [state]), wp_assertThat (by simp [catchup]),
    wp_assertThat (by simp [nothing])]
  have pushed : (push lm.mSyncingLedgers ledgerData).2 = [ledgerData] := by
    rw [nothing]
    rfl
  simp only [pushed]
  apply startCatchupIf_sound _ _ (List.cons_ne_nil _ _)
  refine ⟨⟨List.isChain_singleton ledgerData, sound.closedInOrder⟩, sound.small, ?_,
    .waitingForTriggerLedger rfl rfl ledgerData [] rfl ahead work posted⟩
  intro lcd member
  rw [List.mem_singleton.mp member]
  exact small

theorem Sound.waitingForClosing (sound : Sound lm)
    (waiting : lm.mCatchupState = .WAITING_FOR_CLOSING_LEDGER) :
    lm.mState = .LM_CATCHING_UP_STATE ∧ lm.mSyncingLedgers = [] ∧ lm.mCatchupWork = none ∧
      lm.posted = 0 := by
  cases sound.phase with
  | waitingForClosingLedger state catchup nothing work posted => exact ⟨state, nothing, work, posted⟩
  | outOfCatchup _ catchup => cases waiting.symm.trans catchup
  | waitingForTriggerLedger _ catchup => cases waiting.symm.trans catchup
  | applyingHistory _ catchup => cases waiting.symm.trans catchup
  | applyingBufferedLedgers _ catchup => cases waiting.symm.trans catchup

theorem Sound.applyingHistory (sound : Sound lm) (applying : lm.mCatchupState = .APPLYING_HISTORY) :
    lm.mState = .LM_CATCHING_UP_STATE ∧ ∃ first later, lm.mSyncingLedgers = first :: later ∧
      ∃ configuration, lm.mCatchupWork = some configuration ∧
        configuration.toLedger.toNat + 1 = first.mLedgerSeq.toNat ∧ lm.posted = 0 := by
  cases sound.phase with
  | applyingHistory state catchup first later buffered configuration work target posted =>
      exact ⟨state, first, later, buffered, configuration, work, target, posted⟩
  | outOfCatchup _ catchup => cases applying.symm.trans catchup
  | waitingForTriggerLedger _ catchup => cases applying.symm.trans catchup
  | applyingBufferedLedgers _ catchup => cases applying.symm.trans catchup
  | waitingForClosingLedger _ catchup => cases applying.symm.trans catchup

theorem Sound.consistent (sound : Sound lm) :
    lm.mState ≠ .LM_CATCHING_UP_STATE → lm.mCatchupState = .NONE :=
  fun state => (sound.outOfCatchup state).1

theorem synced_sound (sound : Sound lm) (nothing : lm.mSyncingLedgers = [])
    (work : lm.mCatchupWork = none) (posted : lm.posted = 0)
    {ledgerData : LedgerCloseData Hash Value} (small : Small ledgerData.mLedgerSeq)
    {after : Manager Hash Rest Value}
    (closed : CloseLedgerIfResult.CLOSED.Leaves ledgerData lm after) :
    KeepsSound (setState .LM_SYNCED_STATE) after := by
  obtain ⟨last, number, above, is⟩ := closed
  have orderly := sound.toOrderly.closing above
  rw [is, KeepsSound]
  apply (wp_setState (by decide) ?_).mpr
  swap
  · exact sound.consistent
  exact ⟨⟨orderly.contiguous, orderly.closedInOrder⟩, number ▸ small, sound.smallBuffered,
    .outOfCatchup (by simp) rfl nothing work posted⟩

variable [DecidableEq Hash]

theorem finalizeCatchup_sound (sound : Sound lm)
    (waiting : lm.mCatchupState = .WAITING_FOR_CLOSING_LEDGER)
    {ledgerData : LedgerCloseData Hash Value} (small : Small ledgerData.mLedgerSeq) :
    KeepsSound (finalizeCatchup env ledgerData) lm := by
  obtain ⟨state, nothing, work, posted⟩ := sound.waitingForClosing waiting
  unfold KeepsSound finalizeCatchup
  simp only [wp_bind, wp_get]
  rw [wp_assertThat (by simp [state]), wp_assertThat (by simp [waiting]),
    wp_assertThat (by simp [nothing])]
  apply wp_mono (closeLedgerIf_spec env sound.toOrderly sound.small ledgerData)
  · intro result after left
    cases result with
    | CLOSED => exact synced_sound sound nothing work posted small left
    | TOO_OLD =>
        rw [left]
        exact sound
    | TOO_NEW =>
        obtain ⟨is, ahead⟩ := left
        rw [is, wp_bind, wp_setState (by decide) sound.consistent]
        apply initializeCatchup_sound
        · exact ⟨⟨sound.contiguous, sound.closedInOrder⟩, sound.small, sound.smallBuffered,
            .outOfCatchup (by simp) rfl nothing work posted⟩
        · simp
        · exact small
        · exact ahead
  · exact fun _ _ tolerated => tolerated

theorem closeLedgerIf_sound (sound : Sound lm) (state : lm.mState ≠ .LM_CATCHING_UP_STATE)
    {ledgerData : LedgerCloseData Hash Value} (small : Small ledgerData.mLedgerSeq) :
    KeepsSound (do
      match ← closeLedgerIf env ledgerData with
      | .CLOSED => setState .LM_SYNCED_STATE
      | .TOO_OLD => return ()
      | .TOO_NEW => initializeCatchup env ledgerData) lm := by
  obtain ⟨catchup, nothing, work, posted⟩ := sound.outOfCatchup state
  rw [KeepsSound, wp_bind]
  apply wp_mono (closeLedgerIf_spec env sound.toOrderly sound.small ledgerData)
  · intro result after left
    cases result with
    | CLOSED => exact synced_sound sound nothing work posted small left
    | TOO_OLD =>
        rw [left]
        exact sound
    | TOO_NEW =>
        rw [left.1]
        exact initializeCatchup_sound env sound state small left.2
  · exact fun _ _ tolerated => tolerated

theorem valueExternalized_sound (sound : Sound lm) {ledgerData : LedgerCloseData Hash Value}
    (small : Small ledgerData.mLedgerSeq) : KeepsSound (valueExternalized env ledgerData) lm := by
  unfold KeepsSound valueExternalized
  rw [wp_bind, wp_get]
  cases sound.phase with
  | outOfCatchup state catchup nothing work posted =>
      cases is : lm.mState with
      | LM_CATCHING_UP_STATE => exact absurd is state
      | LM_BOOTING_STATE => exact closeLedgerIf_sound env sound state small
      | LM_SYNCED_STATE => exact closeLedgerIf_sound env sound state small
  | waitingForTriggerLedger state catchup first later is ahead work posted =>
      simp only [state, catchup]
      exact continueCatchup_sound env sound state (by simp [is]) small
  | applyingHistory state catchup first later is configuration work target posted =>
      simp only [state, catchup]
      exact continueCatchup_sound env sound state (by simp [is]) small
  | applyingBufferedLedgers state catchup first later is next work posted =>
      simp only [state, catchup]
      exact continueCatchup_sound env sound state (by simp [is]) small
  | waitingForClosingLedger state catchup nothing work posted =>
      simp only [state, catchup]
      exact finalizeCatchup_sound env sound catchup small

end Values

/-! ### Progress of the work -/

section Progress

variable [DecidableEq Hash] (env : Environment Hash Rest Value) {lm : Manager Hash Rest Value}

omit [DecidableEq Hash] in
theorem applyBufferedLedgers_sound (orderly : Orderly lm)
    (small : Small lm.mLastClosedLedger.header.ledgerSeq)
    (smallBuffered : ∀ lcd ∈ lm.mSyncingLedgers, Small lcd.mLedgerSeq)
    (catchup : lm.mCatchupState = .APPLYING_BUFFERED_LEDGERS)
    (state : lm.mState = .LM_CATCHING_UP_STATE)
    (next : ∀ first ∈ lm.mSyncingLedgers.head?,
      lm.mLastClosedLedger.header.ledgerSeq.toNat + 1 = first.mLedgerSeq.toNat)
    (work : lm.mCatchupWork = none) (posted : lm.posted = 0) :
    KeepsSound applyBufferedLedgers lm := by
  unfold KeepsSound applyBufferedLedgers
  simp only [wp_bind, wp_get]
  rw [wp_assertThat (by simp [catchup])]
  cases buffered : lm.mSyncingLedgers with
  | nil =>
      simp only [List.isEmpty_nil, if_true, wp_setCatchupState]
      exact ⟨⟨orderly.contiguous, orderly.closedInOrder⟩, small, smallBuffered,
        .waitingForClosingLedger rfl rfl buffered work posted⟩
  | cons first later =>
      simp only [List.isEmpty_cons, Bool.false_eq_true, if_false, wp_modify]
      refine ⟨⟨orderly.contiguous, orderly.closedInOrder⟩, small, smallBuffered,
        .applyingBufferedLedgers state catchup first later buffered ?_ work ?_⟩
      · exact next first (by rw [buffered]; rfl)
      · simp [posted]

theorem applyBufferedLedger_sound {first : LedgerCloseData Hash Value}
    {later : List (LedgerCloseData Hash Value)} (buffered : lm.mSyncingLedgers = first :: later)
    (orderly : Orderly lm) (small : Small lm.mLastClosedLedger.header.ledgerSeq)
    (smallBuffered : ∀ lcd ∈ lm.mSyncingLedgers, Small lcd.mLedgerSeq)
    (catchup : lm.mCatchupState = .APPLYING_BUFFERED_LEDGERS)
    (state : lm.mState = .LM_CATCHING_UP_STATE)
    (next : lm.mLastClosedLedger.header.ledgerSeq.toNat + 1 = first.mLedgerSeq.toNat)
    (work : lm.mCatchupWork = none) (posted : lm.posted = 0) :
    KeepsSound (applyBufferedLedger env) lm := by
  have smallFirst : Small first.mLedgerSeq := smallBuffered first (by rw [buffered]; exact List.mem_cons_self)
  have contiguous : Contiguous (first :: later) := buffered ▸ orderly.contiguous
  have shorter : Orderly { lm with mSyncingLedgers := later } :=
    ⟨contiguous.tail, orderly.closedInOrder⟩
  unfold KeepsSound applyBufferedLedger
  simp only [wp_bind, wp_get, buffered, wp_modify]
  rw [wp_assertThat (by
    rw [decide_eq_true_eq]
    apply UInt32.toNat.inj
    rw [small.succ]
    exact next.symm)]
  apply wp_mono (closeLedger_spec env first)
  · rintro _ after ⟨last, number, is⟩
    rw [is]
    have closed : last.header.ledgerSeq.toNat = first.mLedgerSeq.toNat := by
      rw [number, small.succ]
      exact next
    have recorded := shorter.closing next.symm
    apply applyBufferedLedgers_sound
    · exact ⟨recorded.contiguous, recorded.closedInOrder⟩
    · unfold Small at smallFirst ⊢
      rw [closed]
      exact smallFirst
    · intro lcd member
      exact smallBuffered lcd (by rw [buffered]; exact List.mem_cons_of_mem first member)
    · exact catchup
    · exact state
    · intro second isSecond
      rw [closed]
      exact (List.isChain_cons.mp contiguous).1 second isSecond
    · exact work
    · exact posted
  · rintro failure after ⟨⟨what, thrown⟩, is⟩
    rw [thrown, is]
    exact ⟨rfl, shorter.closing next.symm⟩

omit [DecidableEq Hash] in
theorem Sound.replayed (sound : Sound lm) {configuration : CatchupConfiguration Hash}
    (work : lm.mCatchupWork = some configuration) {closings : List Closing}
    (inOrder : ClosedInOrder closings) {last : LedgerHeaderHistoryEntry Hash Rest}
    (small : Small last.header.ledgerSeq) :
    Sound { lm with closings, mLastClosedLedger := last } := by
  refine ⟨⟨sound.contiguous, inOrder⟩, small, sound.smallBuffered, ?_⟩
  cases sound.phase with
  | applyingHistory state catchup first later buffered configuration work target posted =>
      exact .applyingHistory state catchup first later buffered configuration work target posted
  | outOfCatchup _ _ _ none_ => cases work.symm.trans none_
  | waitingForTriggerLedger _ _ _ _ _ _ none_ => cases work.symm.trans none_
  | applyingBufferedLedgers _ _ _ _ _ _ none_ => cases work.symm.trans none_
  | waitingForClosingLedger _ _ _ none_ => cases work.symm.trans none_

theorem applyHistoryOfSingleLedger_sound (sound : Sound lm)
    {configuration : CatchupConfiguration Hash} (work : lm.mCatchupWork = some configuration)
    {hHeader : LedgerHeaderHistoryEntry Hash Rest} {closeData : LedgerCloseData Hash Value}
    (small : Small hHeader.header.ledgerSeq) :
    wp (applyHistoryOfSingleLedger env hHeader closeData) (fun _ after => Sound after)
      (fun failure after => (∃ what, failure = .runtimeError what) ∧ Sound after) lm := by
  unfold applyHistoryOfSingleLedger
  simp only [wp_bind, wp_get, wp_ite, wp_throw, wp_pure]
  refine ⟨fun _ => sound, fun _ => ⟨fun _ => ⟨fun _ => ⟨⟨_, rfl⟩, sound⟩, fun _ => sound⟩, fun _ =>
    ⟨fun _ => ⟨fun _ => ⟨⟨_, rfl⟩, sound⟩, fun _ => sound⟩, fun _ =>
      ⟨fun _ => ⟨⟨_, rfl⟩, sound⟩, fun next => ⟨fun _ => ⟨⟨_, rfl⟩, sound⟩, fun _ =>
        ⟨fun _ => ⟨⟨_, rfl⟩, sound⟩, fun _ => ?_⟩⟩⟩⟩⟩⟩
  have above : hHeader.header.ledgerSeq.toNat =
      lm.mLastClosedLedger.header.ledgerSeq.toNat + 1 := by
    rw [not_not.mp next, sound.small.succ]
  have recorded := (sound.toOrderly.closing above).closedInOrder
  apply wp_mono (closeLedger_spec env _)
  · rintro _ after ⟨last, number, is⟩
    have closed : Sound after := by
      rw [is]
      refine sound.replayed work recorded ?_
      rw [number, ← not_not.mp next]
      exact small
    exact ⟨fun _ => ⟨⟨_, rfl⟩, closed⟩, fun _ => closed⟩
  · rintro failure after ⟨thrown, is⟩
    refine ⟨thrown, ?_⟩
    rw [is]
    exact sound.replayed work recorded sound.small

omit [DecidableEq Hash] in
theorem wp_asWork {action : Managing Hash Rest Value Unit}
    (ends : wp action (fun _ after => Sound after)
      (fun failure after => (∃ what, failure = .runtimeError what) ∧ Sound after) lm) :
    KeepsSound (asWork action) lm := by
  unfold KeepsSound wp asWork
  unfold wp at ends
  cases ran : action lm with
  | ok _ after =>
      rw [ran] at ends
      exact ends
  | error failure after =>
      rw [ran] at ends
      obtain ⟨⟨what, rfl⟩, kept⟩ := ends
      exact kept

theorem replay_sound (sound : Sound lm) {hHeader : LedgerHeaderHistoryEntry Hash Rest}
    {closeData : LedgerCloseData Hash Value} (small : Small hHeader.header.ledgerSeq) :
    KeepsSound (replay env hHeader closeData) lm := by
  unfold KeepsSound replay
  rw [wp_bind, wp_get]
  cases work : lm.mCatchupWork with
  | none => exact sound
  | some configuration => exact wp_asWork (applyHistoryOfSingleLedger_sound env sound work small)

omit [DecidableEq Hash] in
theorem wp_assertThat_report {post : Unit → Manager Hash Rest Value → Prop} {holds : Bool}
    {what : String} (orderly : Orderly lm) (passed : post () lm) :
    wp (assertThat .historyCaughtup holds what) post Tolerated lm := by
  cases holds with
  | true => exact passed
  | false => exact ⟨rfl, orderly⟩

variable [DecidableEq Rest]

theorem historyCaughtup_sound (sound : Sound lm) {ec : Bool} {progressState : ProgressState}
    {lastClosed : LedgerHeaderHistoryEntry Hash Rest} (small : Small lastClosed.header.ledgerSeq)
    (finished : ec = false → progressState = .FINISHED →
      ∀ configuration, lm.mCatchupWork = some configuration →
        lm.mLastClosedLedger.header.ledgerSeq = configuration.toLedger) :
    KeepsSound (historyCaughtup ec progressState lastClosed .ONLINE) lm := by
  by_cases applying : lm.mCatchupState = .APPLYING_HISTORY
  swap
  -- the work reports at the wrong time
  · unfold KeepsSound historyCaughtup assertThat
    simp only [wp_bind, wp_get, applying, decide_false, Bool.false_eq_true, if_false]
    exact ⟨rfl, sound.toOrderly⟩
  obtain ⟨state, first, later, buffered, configuration, work, target, posted⟩ :=
    sound.applyingHistory applying
  unfold KeepsSound historyCaughtup
  simp only [wp_bind, wp_get]
  rw [wp_assertThat (by simp [applying])]
  cases ec with
  | true =>
      simp only [if_true, wp_bind]
      rw [wp_setState (by decide) sound.consistent, wp_modify]
      exact ⟨⟨List.isChain_nil, sound.closedInOrder⟩, sound.small, (fun _ member => by cases member),
        .outOfCatchup (by simp) rfl rfl rfl posted⟩
  | false =>
      simp only [Bool.false_eq_true, if_false]
      cases progressState with
      | APPLIED_BUCKETS => exact sound.replayed work sound.closedInOrder small
      | APPLIED_TRANSACTIONS =>
          simp only [wp_bind, wp_get]
          exact wp_assertThat_report sound.toOrderly
            (wp_assertThat_report sound.toOrderly sound)
      | FINISHED =>
          have reached := finished rfl rfl configuration work
          simp only [wp_bind, wp_modify, wp_setCatchupState]
          apply applyBufferedLedgers_sound
          · exact ⟨sound.contiguous, sound.closedInOrder⟩
          · exact sound.small
          · exact sound.smallBuffered
          · rfl
          · rfl
          · intro front isFront
            change front ∈ lm.mSyncingLedgers.head? at isFront
            rw [buffered] at isFront
            cases isFront
            rw [← target, ← reached]
          · rfl
          · exact posted

end Progress

/-! ### Runs -/

section Runs

variable [DecidableEq Hash] [DecidableEq Rest] (env : Environment Hash Rest Value)

omit [DecidableEq Hash] [DecidableEq Rest] in
/-- What may happen: numbers are away from the limit, and the end of catch-up is reported with the
ledger that was asked for. -/
def Allowed (lm : Manager Hash Rest Value) : Event Hash Rest Value → Prop
  | .valueExternalized ledgerData => Small ledgerData.mLedgerSeq
  | .historyCaughtup ec progressState lastClosed =>
      Small lastClosed.header.ledgerSeq ∧
        (ec = false → progressState = .FINISHED →
          ∀ configuration, lm.mCatchupWork = some configuration →
            lm.mLastClosedLedger.header.ledgerSeq = configuration.toLedger)
  | .applyHistory hHeader _ => Small hHeader.header.ledgerSeq
  | .applyBufferedLedgers => True

structure Booted (lm : Manager Hash Rest Value) : Prop where
  state : lm.mState ≠ .LM_CATCHING_UP_STATE
  catchup : lm.mCatchupState = .NONE
  nothing : lm.mSyncingLedgers = []
  work : lm.mCatchupWork = none
  posted : lm.posted = 0
  closings : lm.closings = []
  small : Small lm.mLastClosedLedger.header.ledgerSeq

inductive Reachable (start : Manager Hash Rest Value) : Manager Hash Rest Value → Prop
  | start : Reachable start start
  | step {lm after : Manager Hash Rest Value} (event : Event Hash Rest Value)
      (reached : Reachable start lm) (allowed : Allowed lm event)
      (performed : perform env event lm = .ok () after) : Reachable start after

theorem perform_sound {lm : Manager Hash Rest Value} (sound : Sound lm)
    {event : Event Hash Rest Value} (allowed : Allowed lm event) :
    KeepsSound (perform env event) lm := by
  cases event with
  | valueExternalized ledgerData => exact valueExternalized_sound env sound allowed
  | historyCaughtup ec progressState lastClosed => exact historyCaughtup_sound sound allowed.1 allowed.2
  | applyHistory hHeader closeData => exact replay_sound env sound allowed
  | applyBufferedLedgers =>
      unfold KeepsSound perform
      rw [wp_bind, wp_get]
      cases sound.phase with
      | applyingBufferedLedgers state catchup first later buffered next work posted =>
          rw [if_neg (by simp [posted]), wp_bind, wp_modify]
          apply applyBufferedLedger_sound env
          · exact buffered
          · exact ⟨sound.contiguous, sound.closedInOrder⟩
          · exact sound.small
          · exact sound.smallBuffered
          · exact catchup
          · exact state
          · exact next
          · exact work
          · simp [posted]
      | outOfCatchup _ _ _ _ posted =>
          rw [if_pos posted]
          exact sound
      | waitingForTriggerLedger _ _ _ _ _ _ _ posted =>
          rw [if_pos posted]
          exact sound
      | applyingHistory _ _ _ _ _ _ _ _ posted =>
          rw [if_pos posted]
          exact sound
      | waitingForClosingLedger _ _ _ _ posted =>
          rw [if_pos posted]
          exact sound

theorem Reachable.sound {start lm : Manager Hash Rest Value} (reached : Reachable env start lm)
    (booted : Booted start) : Sound lm := by
  induction reached with
  | start =>
      refine ⟨⟨?_, ?_⟩, booted.small, ?_,
        .outOfCatchup booted.state booted.catchup booted.nothing booted.work booted.posted⟩
      · rw [booted.nothing]
        exact List.isChain_nil
      · rw [booted.closings]
        exact fun _ member => by cases member
      · rw [booted.nothing]
        exact fun _ member => by cases member
  | step event reached allowed performed ih =>
      have kept := perform_sound env ih allowed
      unfold KeepsSound wp at kept
      rw [performed] at kept
      exact kept

/-- In every run ledgers are closed one after the other, what is buffered is contiguous, and an
event that fails does so with an exception of `closeLedger` or `closeLedgerIf`, or with an
assertion on what the work reports. -/
theorem reachable_orderly (start lm : Manager Hash Rest Value) (booted : Booted start)
    (reached : Reachable env start lm) :
    ClosedInOrder lm.closings ∧ Contiguous lm.mSyncingLedgers ∧
      ∀ event, Allowed lm event → ∀ failure after, perform env event lm = .error failure after →
        ClosedInOrder after.closings ∧ Contiguous after.mSyncingLedgers ∧ failure ≠ .undefined ∧
          (∀ what, failure ≠ .invalidArgument what) ∧
          ∀ function what, failure = .assertFailed function what → function = .historyCaughtup := by
  have sound := reached.sound env booted
  refine ⟨sound.closedInOrder, sound.contiguous, ?_⟩
  intro event allowed failure after failed
  have kept := perform_sound env sound allowed
  unfold KeepsSound wp at kept
  rw [failed] at kept
  obtain ⟨tolerated, orderly⟩ := kept
  refine ⟨orderly.closedInOrder, orderly.contiguous, ?_, ?_, ?_⟩
  · rintro rfl
    cases tolerated
  · rintro what rfl
    cases tolerated
  · rintro function what rfl
    exact of_decide_eq_true tolerated

end Runs

/-- Hashes that count the ledgers. -/
def countingEnv : Environment UInt32 Unit Unit where
  accelerated := false
  LEDGER_PROTOCOL_VERSION := 11
  getCatchupCount := 0
  hashOf header := header.ledgerSeq
  apply _ _ := .ok (11, ())

def numbered (ledgerSeq : UInt32) : LedgerHeaderHistoryEntry UInt32 Unit :=
  { hash := ledgerSeq
    header := { ledgerVersion := 11, previousLedgerHash := ledgerSeq - 1, ledgerSeq, rest := () } }

def externalized (ledgerSeq : UInt32) : LedgerCloseData UInt32 Unit :=
  { mLedgerSeq := ledgerSeq
    mTxSet := { previousLedgerHash := ledgerSeq - 1, contentsHash := 0 }
    txSetHash := 0
    value := () }

def bootedAt (ledgerSeq : UInt32) : Manager UInt32 Unit Unit where
  mState := .LM_BOOTING_STATE
  mCatchupState := .NONE
  mCatchupTriggerLedger := 0
  mLastClosedLedger := numbered ledgerSeq
  mSyncingLedgers := []
  mCatchupWork := none
  posted := 0
  closings := []

/-- Catch-up from a value with a gap behind it: ledger 5 is buffered, 70 comes with a gap and
starts catch-up to ledger 4, and ledger 5 is closed from the buffer. -/
theorem reachable_orderly_afterGap :
    ∃ lm, Reachable countingEnv (bootedAt 1) lm ∧ lm.closings = [⟨5, 4⟩] ∧
      ClosedInOrder lm.closings := by
  have small : Small 1 ∧ Small 4 ∧ Small 5 ∧ Small 70 := by decide
  obtain ⟨one, four, five, seventy⟩ := small
  have first : Reachable countingEnv (bootedAt 1) _ :=
    .step (.valueExternalized (externalized 5)) .start five rfl
  have second := Reachable.step (.valueExternalized (externalized 70)) first seventy rfl
  have third := Reachable.step (.historyCaughtup false .APPLIED_BUCKETS (numbered 4)) second
    ⟨four, fun _ impossible => by cases impossible⟩ rfl
  have fourth := Reachable.step (.historyCaughtup false .FINISHED (numbered 4)) third
    ⟨four, fun _ _ configuration asked => by cases asked; rfl⟩ rfl
  have fifth := Reachable.step .applyBufferedLedgers fourth trivial rfl
  have booted : Booted (bootedAt 1) := ⟨by decide, rfl, rfl, rfl, rfl, rfl, one⟩
  exact ⟨_, fifth, rfl, (reachable_orderly countingEnv _ _ booted fifth).1⟩

end ViiCore.LedgerManager.CatchupStates
