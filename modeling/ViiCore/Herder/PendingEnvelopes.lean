import Mathlib.Data.Finset.Basic
import ViiCore.Library.FiniteMap
import ViiCore.SCP.QuorumSet

/-!
Envelopes that wait for their quorum sets and transaction sets (`herder/PendingEnvelopes.cpp`,
`overlay/ItemFetcher.cpp`, `overlay/Tracker.cpp`).

An item that arrives is handed to all envelopes that wait for it: `ItemFetcher::recv` takes them
from the tracker one by one and gives each to the herder again. What the herder then does may call
everything here once more, so the loop is kept as a stack of items that are being received, and
each turn of it is a step of its own.

The herder's checks of an envelope, what a rebuild of the tracked quorum finds and what it reads
from the database are parameters of a call. Asking peers, timers and metrics are left out, and so
is what forgets whole slots. The caches evict nothing.
-/

namespace ViiCore.Herder.Pending

open ViiCore.FiniteMap
open ViiCore.SCP (SCPQuorumSet isQuorumSetSane)

structure SCPEnvelope (NodeID Hash : Type) where
  nodeID : NodeID
  slotIndex : Nat
  /-- `Slot::getCompanionQuorumSetHashFromStatement` -/
  quorumSetHash : Hash
  /-- `getTxSetHashes`, or nothing where a value cannot be decoded. -/
  txSetHashes : Option (List Hash)
  /-- What tells apart envelopes that need the same. -/
  tag : Nat
  deriving DecidableEq

structure SlotEnvelopes (NodeID Hash : Type) where
  mProcessedEnvelopes : List (SCPEnvelope NodeID Hash)
  mDiscardedEnvelopes : Finset (SCPEnvelope NodeID Hash)
  mFetchingEnvelopes : Finset (SCPEnvelope NodeID Hash)
  mReadyEnvelopes : List (SCPEnvelope NodeID Hash)

inductive EnvelopeStatus where
  | ENVELOPE_STATUS_DISCARDED
  | ENVELOPE_STATUS_FETCHING
  | ENVELOPE_STATUS_READY
  | ENVELOPE_STATUS_PROCESSED
  deriving DecidableEq

inductive Kind where
  | quorumSet
  | txSet
  deriving DecidableEq

structure Item (Hash : Type) where
  kind : Kind
  hash : Hash
  deriving DecidableEq

variable {NodeID Hash TxSet : Type} [DecidableEq NodeID] [DecidableEq Hash]

/-! ### Fetching -/

structure Tracker (NodeID Hash : Type) where
  mWaitingEnvelopes : List (SCPEnvelope NodeID Hash)
  mLastSeenSlotIndex : Nat

namespace Tracker

variable (tracker : Tracker NodeID Hash)

omit [DecidableEq NodeID] [DecidableEq Hash] in
def listen (env : SCPEnvelope NodeID Hash) : Tracker NodeID Hash where
  mWaitingEnvelopes := tracker.mWaitingEnvelopes ++ [env]
  mLastSeenSlotIndex := max env.slotIndex tracker.mLastSeenSlotIndex

def discard (env : SCPEnvelope NodeID Hash) : Tracker NodeID Hash :=
  { tracker with mWaitingEnvelopes := tracker.mWaitingEnvelopes.filter fun other => other ≠ env }

omit [DecidableEq NodeID] [DecidableEq Hash] in
def cancel : Tracker NodeID Hash := { tracker with mLastSeenSlotIndex := 0 }

end Tracker

abbrev ItemFetcher (NodeID Hash : Type) := Map Hash (Tracker NodeID Hash)

namespace ItemFetcher

variable (fetcher : ItemFetcher NodeID Hash)

omit [DecidableEq NodeID] in
def fetch (itemHash : Hash) (envelope : SCPEnvelope NodeID Hash) : ItemFetcher NodeID Hash :=
  match fetcher.lookup itemHash with
  | none =>
      let tracker : Tracker NodeID Hash := { mWaitingEnvelopes := [], mLastSeenSlotIndex := 0 }
      fetcher.insert itemHash (tracker.listen envelope)
  | some tracker => fetcher.insert itemHash (tracker.listen envelope)

def stopFetch (itemHash : Hash) (envelope : SCPEnvelope NodeID Hash) : ItemFetcher NodeID Hash :=
  match fetcher.lookup itemHash with
  | none => fetcher
  | some tracker =>
      let discarded := tracker.discard envelope
      fetcher.insert itemHash
        (if discarded.mWaitingEnvelopes.isEmpty then discarded.cancel else discarded)

omit [DecidableEq NodeID] in
def getLastSeenSlotIndex (itemHash : Hash) : Nat :=
  match fetcher.lookup itemHash with
  | none => 0
  | some tracker => tracker.mLastSeenSlotIndex

omit [DecidableEq NodeID] in
def fetchingFor (itemHash : Hash) : List (SCPEnvelope NodeID Hash) :=
  match fetcher.lookup itemHash with
  | none => []
  | some tracker => tracker.mWaitingEnvelopes

end ItemFetcher

/-! ### Pending envelopes -/

variable (NodeID Hash TxSet) in
structure PendingEnvelopes where
  mEnvelopes : Nat → SlotEnvelopes NodeID Hash
  mQsetCache : Map Hash (SCPQuorumSet NodeID)
  mTxSetCache : Map Hash (Nat × TxSet)
  mQuorumSetFetcher : ItemFetcher NodeID Hash
  mTxSetFetcher : ItemFetcher NodeID Hash
  mRebuildQuorum : Bool
  /-- The nodes of `mQuorumTracker`. -/
  mQuorum : Finset NodeID
  /-- The calls of `ItemFetcher::recv` that have not returned, the innermost first. -/
  receiving : List (Item Hash)
  /-- Everything that was put into a ready queue, the last first. -/
  released : List (SCPEnvelope NodeID Hash)

structure Surroundings (NodeID Hash : Type) where
  /-- The checks that `HerderImpl::recvSCPEnvelope` makes first. -/
  accepts : SCPEnvelope NodeID Hash → Bool
  /-- The quorum that a rebuild finds. -/
  rebuilt : Finset NodeID
  /-- What `getQSet` reads from the database in a rebuild. -/
  loaded : List (Hash × SCPQuorumSet NodeID)

namespace PendingEnvelopes

variable (pending : PendingEnvelopes NodeID Hash TxSet) (around : Surroundings NodeID Hash)

omit [DecidableEq NodeID] [DecidableEq Hash] in
def fetcher : Kind → ItemFetcher NodeID Hash
  | .quorumSet => pending.mQuorumSetFetcher
  | .txSet => pending.mTxSetFetcher

omit [DecidableEq NodeID] [DecidableEq Hash] in
def setFetcher (kind : Kind) (fetcher : ItemFetcher NodeID Hash) : PendingEnvelopes NodeID Hash TxSet :=
  match kind with
  | .quorumSet => { pending with mQuorumSetFetcher := fetcher }
  | .txSet => { pending with mTxSetFetcher := fetcher }

omit [DecidableEq NodeID] in
def cached (item : Item Hash) : Bool :=
  match item.kind with
  | .quorumSet => (pending.mQsetCache.lookup item.hash).isSome
  | .txSet => (pending.mTxSetCache.lookup item.hash).isSome

omit [DecidableEq NodeID] [DecidableEq Hash] in
def setSlot (slotIndex : Nat) (slot : SlotEnvelopes NodeID Hash) : PendingEnvelopes NodeID Hash TxSet :=
  { pending with
    mEnvelopes := fun index => if index = slotIndex then slot else pending.mEnvelopes index }

def isDiscarded (envelope : SCPEnvelope NodeID Hash) : Bool :=
  envelope ∈ (pending.mEnvelopes envelope.slotIndex).mDiscardedEnvelopes

omit [DecidableEq NodeID] [DecidableEq Hash] in
def itemsOf (envelope : SCPEnvelope NodeID Hash) : List (Item Hash) :=
  ⟨.quorumSet, envelope.quorumSetHash⟩ :: (envelope.txSetHashes.getD []).map (Item.mk .txSet)

section

omit [DecidableEq NodeID]

def isFullyFetched (envelope : SCPEnvelope NodeID Hash) : Bool :=
  (itemsOf envelope).all pending.cached

def fetchMissing (pending : PendingEnvelopes NodeID Hash TxSet) (envelope : SCPEnvelope NodeID Hash)
    (item : Item Hash) : PendingEnvelopes NodeID Hash TxSet :=
  if pending.cached item then pending
  else pending.setFetcher item.kind ((pending.fetcher item.kind).fetch item.hash envelope)

def startFetch (envelope : SCPEnvelope NodeID Hash) : PendingEnvelopes NodeID Hash TxSet :=
  (itemsOf envelope).foldl (fun pending item => fetchMissing pending envelope item) pending

end

def stopItem (pending : PendingEnvelopes NodeID Hash TxSet) (envelope : SCPEnvelope NodeID Hash)
    (item : Item Hash) : PendingEnvelopes NodeID Hash TxSet :=
  pending.setFetcher item.kind ((pending.fetcher item.kind).stopFetch item.hash envelope)

/-- A value that cannot be decoded ends the call after the quorum set. -/
def stopFetch (envelope : SCPEnvelope NodeID Hash) : PendingEnvelopes NodeID Hash TxSet :=
  (itemsOf envelope).foldl (fun pending item => stopItem pending envelope item) pending

omit [DecidableEq NodeID] in
/-- The order of the least recently used is not kept. -/
def touchFetchCache (slotIndex : Nat) (txSetHashes : List Hash) : PendingEnvelopes NodeID Hash TxSet :=
  let touch (cache : Map Hash (Nat × TxSet)) (hash : Hash) : Map Hash (Nat × TxSet) :=
    match cache.lookup hash with
    | none => cache
    | some item => cache.insert hash (max item.1 slotIndex, item.2)
  { pending with mTxSetCache := txSetHashes.foldl touch pending.mTxSetCache }

omit [DecidableEq NodeID] in
def refreshQuorum : PendingEnvelopes NodeID Hash TxSet :=
  if pending.mRebuildQuorum then
    { pending with
      mQuorum := around.rebuilt
      mQsetCache := around.loaded.foldl (fun cache found => cache.insert found.1 found.2)
        pending.mQsetCache
      mRebuildQuorum := false }
  else pending

def envelopeReady (envelope : SCPEnvelope NodeID Hash) : PendingEnvelopes NodeID Hash TxSet :=
  let slot := pending.mEnvelopes envelope.slotIndex
  { pending.setSlot envelope.slotIndex
      { slot with
        mProcessedEnvelopes := slot.mProcessedEnvelopes ++ [envelope]
        mFetchingEnvelopes := slot.mFetchingEnvelopes.erase envelope
        mReadyEnvelopes := slot.mReadyEnvelopes ++ [envelope] } with
    released := envelope :: pending.released }

def enterFetching (envelope : SCPEnvelope NodeID Hash) : PendingEnvelopes NodeID Hash TxSet :=
  let slot := pending.mEnvelopes envelope.slotIndex
  if envelope ∈ slot.mFetchingEnvelopes then pending
  else
    (pending.setSlot envelope.slotIndex
      { slot with mFetchingEnvelopes := insert envelope slot.mFetchingEnvelopes }).startFetch envelope

def recvSCPEnvelope (envelope : SCPEnvelope NodeID Hash) :
    EnvelopeStatus × PendingEnvelopes NodeID Hash TxSet :=
  let pending := pending.refreshQuorum around
  if envelope.nodeID ∉ pending.mQuorum then (.ENVELOPE_STATUS_DISCARDED, pending)
  else if pending.isDiscarded envelope then (.ENVELOPE_STATUS_DISCARDED, pending)
  else
    match envelope.txSetHashes with
    | none => (.ENVELOPE_STATUS_DISCARDED, pending)
    | some txSetHashes =>
        let pending := pending.touchFetchCache envelope.slotIndex txSetHashes
        let slot := pending.mEnvelopes envelope.slotIndex
        if envelope ∉ slot.mFetchingEnvelopes ∧ envelope ∈ slot.mProcessedEnvelopes then
          (.ENVELOPE_STATUS_PROCESSED, pending)
        else
          let pending := pending.enterFetching envelope
          if pending.isFullyFetched envelope then
            (.ENVELOPE_STATUS_READY, pending.envelopeReady envelope)
          else (.ENVELOPE_STATUS_FETCHING, pending)

def discardSCPEnvelope (envelope : SCPEnvelope NodeID Hash) : PendingEnvelopes NodeID Hash TxSet :=
  if pending.isDiscarded envelope then pending
  else
    let slot := pending.mEnvelopes envelope.slotIndex
    (pending.setSlot envelope.slotIndex
      { slot with
        mDiscardedEnvelopes := insert envelope slot.mDiscardedEnvelopes
        mFetchingEnvelopes := slot.mFetchingEnvelopes.erase envelope }).stopFetch envelope

/-! ### Items that arrive -/

omit [DecidableEq NodeID] in
def beginRecv (item : Item Hash) : PendingEnvelopes NodeID Hash TxSet :=
  match (pending.fetcher item.kind).lookup item.hash with
  | none => pending
  | some _ => { pending with receiving := item :: pending.receiving }

def continueRecv : PendingEnvelopes NodeID Hash TxSet :=
  match pending.receiving with
  | [] => pending
  | item :: outer =>
      match (pending.fetcher item.kind).lookup item.hash with
      | none => { pending with receiving := outer }
      | some tracker =>
          match tracker.mWaitingEnvelopes.getLast? with
          | none =>
              { pending.setFetcher item.kind
                  ((pending.fetcher item.kind).insert item.hash tracker.cancel) with
                receiving := outer }
          | some envelope =>
              let popped := { tracker with mWaitingEnvelopes := tracker.mWaitingEnvelopes.dropLast }
              let pending := pending.setFetcher item.kind
                ((pending.fetcher item.kind).insert item.hash popped)
              if around.accepts envelope then (pending.recvSCPEnvelope around envelope).2 else pending

omit [DecidableEq NodeID] in
/-- Without the assertion that the quorum set is sane. -/
def addSCPQuorumSet (hash : Hash) (q : SCPQuorumSet NodeID) : PendingEnvelopes NodeID Hash TxSet :=
  { pending with mQsetCache := pending.mQsetCache.insert hash q }.beginRecv ⟨.quorumSet, hash⟩

def discardSCPEnvelopesWithQSet (hash : Hash) : PendingEnvelopes NodeID Hash TxSet :=
  (pending.mQuorumSetFetcher.fetchingFor hash).foldl discardSCPEnvelope pending

def recvSCPQuorumSet (hash : Hash) (q : SCPQuorumSet NodeID) : PendingEnvelopes NodeID Hash TxSet :=
  if pending.mQuorumSetFetcher.getLastSeenSlotIndex hash = 0 then pending
  else if isQuorumSetSane q false then pending.addSCPQuorumSet hash q
  else pending.discardSCPEnvelopesWithQSet hash

omit [DecidableEq NodeID] in
def addTxSet (hash : Hash) (lastSeenSlotIndex : Nat) (txset : TxSet) :
    PendingEnvelopes NodeID Hash TxSet :=
  { pending with
    mTxSetCache := pending.mTxSetCache.insert hash (lastSeenSlotIndex, txset) }.beginRecv ⟨.txSet, hash⟩

omit [DecidableEq NodeID] in
def recvTxSet (hash : Hash) (txset : TxSet) : PendingEnvelopes NodeID Hash TxSet :=
  let lastSeenSlotIndex := pending.mTxSetFetcher.getLastSeenSlotIndex hash
  if lastSeenSlotIndex = 0 then pending else pending.addTxSet hash lastSeenSlotIndex txset

omit [DecidableEq NodeID] [DecidableEq Hash] in
def pop (slotIndex : Nat) : Option (SCPEnvelope NodeID Hash) × PendingEnvelopes NodeID Hash TxSet :=
  let ready := (List.range (slotIndex + 1)).find? fun index =>
    ¬ (pending.mEnvelopes index).mReadyEnvelopes.isEmpty
  match ready with
  | none => (none, pending)
  | some index =>
      let slot := pending.mEnvelopes index
      (slot.mReadyEnvelopes.getLast?,
        pending.setSlot index { slot with mReadyEnvelopes := slot.mReadyEnvelopes.dropLast })

end PendingEnvelopes

/-! ### Runs -/

inductive Call (NodeID Hash TxSet : Type) where
  | recvSCPEnvelope (around : Surroundings NodeID Hash) (envelope : SCPEnvelope NodeID Hash)
  | recvTxSet (hash : Hash) (txset : TxSet)
  | recvSCPQuorumSet (hash : Hash) (q : SCPQuorumSet NodeID)
  | addTxSet (hash : Hash) (lastSeenSlotIndex : Nat) (txset : TxSet)
  | addSCPQuorumSet (hash : Hash) (q : SCPQuorumSet NodeID)
  | discardSCPEnvelope (envelope : SCPEnvelope NodeID Hash)
  | pop (slotIndex : Nat)
  | continueRecv (around : Surroundings NodeID Hash)
  /-- `envelopeProcessed` and `slotClosed` make a rebuild due. -/
  | rebuildQuorum
  /-- `envelopeProcessed` adds nodes. -/
  | expand (nodes : Finset NodeID)

namespace PendingEnvelopes

variable (pending : PendingEnvelopes NodeID Hash TxSet)

/-- A quorum set that is added without being sane stops the process. -/
def perform : Call NodeID Hash TxSet → PendingEnvelopes NodeID Hash TxSet
  | .recvSCPEnvelope around envelope => (pending.recvSCPEnvelope around envelope).2
  | .recvTxSet hash txset => pending.recvTxSet hash txset
  | .recvSCPQuorumSet hash q => pending.recvSCPQuorumSet hash q
  | .addTxSet hash lastSeenSlotIndex txset => pending.addTxSet hash lastSeenSlotIndex txset
  | .addSCPQuorumSet hash q =>
      if isQuorumSetSane q false then pending.addSCPQuorumSet hash q else pending
  | .discardSCPEnvelope envelope => pending.discardSCPEnvelope envelope
  | .pop slotIndex => (pending.pop slotIndex).2
  | .continueRecv around => pending.continueRecv around
  | .rebuildQuorum => { pending with mRebuildQuorum := true }
  | .expand nodes => { pending with mQuorum := pending.mQuorum ∪ nodes }

variable (NodeID Hash TxSet) in
def start : PendingEnvelopes NodeID Hash TxSet where
  mEnvelopes _ :=
    { mProcessedEnvelopes := [], mDiscardedEnvelopes := ∅, mFetchingEnvelopes := ∅,
      mReadyEnvelopes := [] }
  mQsetCache := ∅
  mTxSetCache := ∅
  mQuorumSetFetcher := ∅
  mTxSetFetcher := ∅
  mRebuildQuorum := true
  mQuorum := ∅
  receiving := []
  released := []

end PendingEnvelopes

end ViiCore.Herder.Pending
