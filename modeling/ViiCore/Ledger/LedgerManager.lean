import ViiCore.Herder.Upgrades
import ViiCore.Transactions.TransactionFrame

/-!
Closing ledgers (`LedgerManagerImpl.cpp`): the fees of all transactions of a set are
charged first, then the transactions are applied one after the other, then the upgrades.

An exception in one transaction is caught and the next transaction goes on from where the
failed one was rolled back to; an exception while the fees are charged, or a failed
assertion, ends the run. The transactions of a set come in the order of `sortForApply`.
-/

namespace ViiCore

/-- Whether a fault is an exception that a handler can catch. -/
def Fault.isException : Fault → Bool
  | .runtimeError _ => true
  | .overflowError _ => true
  | .wrongUnion => true
  | .assertFailed _ => false
  | .signedOverflow => false
  | .diverged => false

end ViiCore

namespace ViiCore.LedgerManager

open ViiCore.Ledger ViiCore.Transactions ViiCore.Herder

structure LedgerCloseData where
  closeTime : Nat
  txs : List TransactionEnvelope
  baseFee : Int
  upgrades : List LedgerUpgrade

def passesSequenceCheck (envelope : TransactionEnvelope) (ledger : Ledger) : Bool :=
  match commonValidPreSeqNum envelope ledger with
  | .ok (.ok source) _ => ¬ isBadSeq envelope 0 source.seqNum
  | _ => false

structure Application where
  envelope : TransactionEnvelope
  before : Ledger
  after : Ledger
  outcome : Except Fault Applied

def Application.passed (application : Application) : Bool :=
  passesSequenceCheck application.envelope application.before

variable (env : Environment)

def processFeesSeqNums (txs : List TransactionEnvelope) (baseFee : Int) : Apply Unit :=
  txs.forM fun envelope => processFeeSeqNum envelope baseFee

/-- The applications of a set with the ledger after them, or what ended the run. -/
def applyTransactions : List TransactionEnvelope → Ledger → List Application × Except Fault Ledger
  | [], ledger => ([], .ok ledger)
  | envelope :: rest, ledger =>
      match apply env envelope ledger with
      | .ok applied after =>
          let (later, result) := applyTransactions rest after
          ({ envelope, before := ledger, after, outcome := .ok applied } :: later, result)
      | .error fault after =>
          let failed : Application := { envelope, before := ledger, after, outcome := .error fault }
          if fault.isException then
            let (later, result) := applyTransactions rest after
            (failed :: later, result)
          else
            ([failed], .error fault)

/-- An exception in an upgrade is caught; an invalid upgrade ends the run. -/
def applyUpgrades (maxLedgerVersion : Nat) : List LedgerUpgrade → Ledger → Except Fault Ledger
  | [], ledger => .ok ledger
  | upgrade :: rest, ledger =>
      if isValidForApply upgrade ledger.header maxLedgerVersion then
        match inLedgerTxn (applyTo upgrade) ledger with
        | .ok _ after => applyUpgrades maxLedgerVersion rest after
        | .error fault after =>
            if fault.isException then applyUpgrades maxLedgerVersion rest after else .error fault
      else
        .error (.runtimeError "Invalid upgrade")

def openLedger (closeTime : Nat) (ledger : Ledger) : Ledger :=
  { ledger with header :=
    { ledger.header with ledgerSeq := (ledger.header.ledgerSeq + 1) % 2 ^ 32, closeTime } }

def closeLedger (maxLedgerVersion : Nat) (ledgerData : LedgerCloseData) (ledger : Ledger) :
    List Application × Except Fault Ledger :=
  match processFeesSeqNums ledgerData.txs ledgerData.baseFee
      (openLedger ledgerData.closeTime ledger) with
  | .error fault _ => ([], .error fault)
  | .ok _ charged =>
      match applyTransactions env ledgerData.txs charged with
      | (applications, .error fault) => (applications, .error fault)
      | (applications, .ok after) =>
          (applications, applyUpgrades maxLedgerVersion ledgerData.upgrades after)

def closeLedgers (maxLedgerVersion : Nat) :
    List LedgerCloseData → Ledger → List Application × Except Fault Ledger
  | [], ledger => ([], .ok ledger)
  | ledgerData :: rest, ledger =>
      match closeLedger env maxLedgerVersion ledgerData ledger with
      | (applications, .error fault) => (applications, .error fault)
      | (applications, .ok after) =>
          let (later, result) := closeLedgers maxLedgerVersion rest after
          (applications ++ later, result)

end ViiCore.LedgerManager
