import Mathlib.Tactic.Common

/-!
The tracker of an item that is being fetched (`overlay/Tracker.cpp`).

Peers are asked one after the other; each time the tracker arms its timer, so that the next peer is
asked when no reply arrives. What the overlay knows of its peers is given at each call.
-/

namespace ViiCore.Overlay

def MS_TO_WAIT_FOR_FETCH_REPLY : Nat := 1500

def MAX_REBUILD_FETCH_LIST : Nat := 1000

/-- What is looked at of an envelope: its slot, and the hash of the message that carries it. -/
structure EnvelopeView (Hash Envelope : Type) where
  slotIndex : Envelope → UInt64
  messageHash : Envelope → Hash

structure Peers (Hash Peer : Type) where
  getPeersKnows : Hash → List Peer
  getRandomAuthenticatedPeers : List Peer
  isAuthenticated : Peer → Bool

structure Tracker (Hash Envelope Peer : Type) where
  mLastAskedPeer : Option Peer
  mNumListRebuild : Nat
  mPeersToAsk : List Peer
  mTimer : Option Nat
  mWaitingEnvelopes : List (Hash × Envelope)
  mItemHash : Hash
  mLastSeenSlotIndex : UInt64

namespace Tracker

variable {Hash Envelope Peer : Type}

def new (itemHash : Hash) : Tracker Hash Envelope Peer :=
  { mLastAskedPeer := none
    mNumListRebuild := 0
    mPeersToAsk := []
    mTimer := none
    mWaitingEnvelopes := []
    mItemHash := itemHash
    mLastSeenSlotIndex := 0 }

section Source

variable (tracker : Tracker Hash Envelope Peer)

def empty : Bool :=
  tracker.mWaitingEnvelopes.isEmpty

def pop : Option (Envelope × Tracker Hash Envelope Peer) :=
  tracker.mWaitingEnvelopes.getLast?.map fun back =>
    (back.2, { tracker with mWaitingEnvelopes := tracker.mWaitingEnvelopes.dropLast })

def cancel : Tracker Hash Envelope Peer :=
  { tracker with
    mTimer := none
    mLastSeenSlotIndex := 0 }

def resetLastSeenSlotIndex : Tracker Hash Envelope Peer :=
  { tracker with mLastSeenSlotIndex := 0 }

def clearEnvelopesBelow (view : EnvelopeView Hash Envelope) (slotIndex : UInt64) :
    Bool × Tracker Hash Envelope Peer :=
  let waiting := tracker.mWaitingEnvelopes.filter fun envelope =>
    ¬ view.slotIndex envelope.2 < slotIndex
  if ¬ waiting.isEmpty then (true, { tracker with mWaitingEnvelopes := waiting })
  else (false, {
    tracker with
    mWaitingEnvelopes := waiting
    mTimer := none
    mLastAskedPeer := none })

def listen (view : EnvelopeView Hash Envelope) (env : Envelope) : Tracker Hash Envelope Peer :=
  { tracker with
    mLastSeenSlotIndex := max (view.slotIndex env) tracker.mLastSeenSlotIndex
    mWaitingEnvelopes := tracker.mWaitingEnvelopes ++ [(view.messageHash env, env)] }

def discard [DecidableEq Envelope] (env : Envelope) : Tracker Hash Envelope Peer :=
  { tracker with
    mWaitingEnvelopes := tracker.mWaitingEnvelopes.filter fun waiting => waiting.2 ≠ env }

/-- The peers in the order they come to stand in the queue: the last is asked first, and those that
have a waiting envelope are asked before the others. -/
def rebuild [DecidableEq Peer] (peers : Peers Hash Peer) : List Peer :=
  let peersWithEnvelope := tracker.mWaitingEnvelopes.flatMap fun e => peers.getPeersKnows e.1
  peers.getRandomAuthenticatedPeers.foldl
    (fun mPeersToAsk p => if p ∈ peersWithEnvelope then mPeersToAsk ++ [p] else p :: mPeersToAsk) []

/-- The loop that takes peers from the back until one is authenticated, on the reversed queue. -/
def nextPeer (isAuthenticated : Peer → Bool) : List Peer → Option Peer × List Peer
  | [] => (none, [])
  | peer :: rest => if isAuthenticated peer then (some peer, rest) else nextPeer isAuthenticated rest

def tryNextPeer [DecidableEq Peer] (peers : Peers Hash Peer) :
    Option Peer × Tracker Hash Envelope Peer :=
  let exhausted := tracker.mPeersToAsk.isEmpty ∧ tracker.mLastAskedPeer.isNone
  let mPeersToAsk := if exhausted then tracker.rebuild peers else tracker.mPeersToAsk
  let mNumListRebuild :=
    if exhausted then tracker.mNumListRebuild + 1 else tracker.mNumListRebuild
  let (peer, rest) := nextPeer peers.isAuthenticated mPeersToAsk.reverse
  let nextTry :=
    match peer with
    | none =>
        if mNumListRebuild > MAX_REBUILD_FETCH_LIST then
          MS_TO_WAIT_FOR_FETCH_REPLY * MAX_REBUILD_FETCH_LIST
        else MS_TO_WAIT_FOR_FETCH_REPLY * mNumListRebuild
    | some _ => MS_TO_WAIT_FOR_FETCH_REPLY
  (peer, {
    tracker with
    mLastAskedPeer := peer
    mNumListRebuild
    mPeersToAsk := rest.reverse
    mTimer := some nextTry })

def doesntHave [DecidableEq Peer] (peers : Peers Hash Peer) (peer : Peer) :
    Option Peer × Tracker Hash Envelope Peer :=
  if tracker.mLastAskedPeer = some peer then tracker.tryNextPeer peers else (none, tracker)

end Source

/-! ### Waiting and armed -/

section Armed

def Waiting (tracker : Tracker Hash Envelope Peer) : Prop :=
  tracker.mWaitingEnvelopes ≠ []

def Armed (tracker : Tracker Hash Envelope Peer) : Prop :=
  tracker.mTimer.isSome = true

variable {tracker : Tracker Hash Envelope Peer}

theorem empty_iff : tracker.empty = true ↔ ¬ tracker.Waiting := by
  unfold empty Waiting
  rw [List.isEmpty_iff, not_not]

theorem listen_waiting (view : EnvelopeView Hash Envelope) (env : Envelope) :
    (tracker.listen view env).Waiting :=
  List.append_ne_nil_of_right_ne_nil _ (List.cons_ne_nil _ [])

theorem tryNextPeer_armed [DecidableEq Peer] (tracker : Tracker Hash Envelope Peer)
    (peers : Peers Hash Peer) : (tracker.tryNextPeer peers).2.Armed :=
  rfl

theorem doesntHave_armed [DecidableEq Peer] {peers : Peers Hash Peer} {peer : Peer}
    (armed : tracker.Armed) : (tracker.doesntHave peers peer).2.Armed := by
  unfold doesntHave
  split
  · exact tracker.tryNextPeer_armed peers
  · exact armed

theorem doesntHave_waiting [DecidableEq Peer] {peers : Peers Hash Peer} {peer : Peer} :
    (tracker.doesntHave peers peer).2.Waiting ↔ tracker.Waiting := by
  unfold doesntHave
  split
  · exact Iff.rfl
  · exact Iff.rfl

theorem discard_waiting [DecidableEq Envelope] {env : Envelope}
    (waiting : (tracker.discard env).Waiting) : tracker.Waiting := by
  intro none
  apply waiting
  unfold discard
  rw [none]
  rfl

theorem clearEnvelopesBelow_kept {view : EnvelopeView Hash Envelope} {slotIndex : UInt64}
    (kept : (tracker.clearEnvelopesBelow view slotIndex).1 = true) :
    tracker.Waiting ∧
      ((tracker.clearEnvelopesBelow view slotIndex).2.Armed ↔ tracker.Armed) := by
  unfold clearEnvelopesBelow at kept ⊢
  dsimp only at kept ⊢
  split at kept
  · rename_i some
    rw [if_pos some]
    refine ⟨?_, Iff.rfl⟩
    intro none
    rw [none] at some
    exact some rfl
  · cases kept

end Armed

end Tracker

end ViiCore.Overlay
