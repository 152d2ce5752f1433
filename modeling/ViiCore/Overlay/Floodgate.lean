import Mathlib.Data.List.Infix
import Mathlib.Logic.Function.Basic
import Mathlib.Tactic.Common

/-!
Flooding of messages (`overlay/Floodgate.cpp`).

There is a record for each message that was heard of: who sent it or was sent it. Messages are
looked up by their hash and peers by their address. Which peers are authenticated, and the current
ledger, are given at each call.
-/

namespace ViiCore.Overlay

structure Wire (Message Hash Peer : Type) where
  sha256 : Message → Hash
  toString : Peer → String

structure FloodRecord (Message : Type) where
  mLedgerSeq : UInt32
  mMessage : Message
  mPeersTold : List String

structure Floodgate (Message Hash : Type) where
  mFloodMap : Hash → Option (FloodRecord Message)
  mShuttingDown : Bool

namespace Floodgate

variable {Message Hash Peer : Type}

def initial : Floodgate Message Hash :=
  { mFloodMap := fun _ => none
    mShuttingDown := false }

section Source

variable [DecidableEq Hash] (wire : Wire Message Hash Peer)

/-- The constructor. The peer may be a null pointer. -/
def newRecord (msg : Message) (ledger : UInt32) (peer : Option Peer) : FloodRecord Message :=
  { mLedgerSeq := ledger
    mMessage := msg
    mPeersTold := (peer.map wire.toString).toList }

/-- `std::map::insert`, which keeps what is there and returns it. -/
def insertNew (mFloodMap : Hash → Option (FloodRecord Message)) (index : Hash)
    (record : FloodRecord Message) :
    (Hash → Option (FloodRecord Message)) × FloodRecord Message :=
  match mFloodMap index with
  | some there => (mFloodMap, there)
  | none => (Function.update mFloodMap index (some record), record)

def clearBelow (flood : Floodgate Message Hash) (currentLedger : UInt32) :
    Floodgate Message Hash :=
  { flood with
    mFloodMap := fun index =>
      (flood.mFloodMap index).filter fun record => ¬ record.mLedgerSeq + 10 < currentLedger }

/-- The only caller passes itself as the peer. -/
def addRecord (flood : Floodgate Message Hash) (getCurrentLedgerSeq : UInt32) (msg : Message)
    (peer : Peer) : Bool × Floodgate Message Hash :=
  if flood.mShuttingDown then (false, flood)
  else
    let index := wire.sha256 msg
    match flood.mFloodMap index with
    | none => (true, {
        flood with
        mFloodMap := Function.update flood.mFloodMap index
          (some (newRecord wire msg getCurrentLedgerSeq (some peer))) })
    | some record => (false, {
        flood with
        mFloodMap := Function.update flood.mFloodMap index
          (some { record with mPeersTold := record.mPeersTold.insert (wire.toString peer) }) })

/-- The loop of a broadcast: whom it has told afterwards, and whom it sends the message. -/
def tellPeers (peersTold : List String) : List Peer → List String × List Peer
  | [] => (peersTold, [])
  | peer :: rest =>
      if wire.toString peer ∈ peersTold then tellPeers peersTold rest
      else
        let (told, sent) := tellPeers (peersTold.insert (wire.toString peer)) rest
        (told, peer :: sent)

def recordOf (flood : Floodgate Message Hash) (getCurrentLedgerSeq : UInt32) (msg : Message)
    (force : Bool) : (Hash → Option (FloodRecord Message)) × FloodRecord Message :=
  let index := wire.sha256 msg
  match flood.mFloodMap index, force with
  | some result, false => (flood.mFloodMap, result)
  | _, _ => insertNew flood.mFloodMap index (newRecord wire msg getCurrentLedgerSeq none)

def broadcast (flood : Floodgate Message Hash) (getCurrentLedgerSeq : UInt32)
    (getAuthenticatedPeers : List Peer) (msg : Message) (force : Bool) :
    List Peer × Floodgate Message Hash :=
  if flood.mShuttingDown then ([], flood)
  else
    let (mFloodMap, result) := recordOf wire flood getCurrentLedgerSeq msg force
    let (peersTold, sent) := tellPeers wire result.mPeersTold getAuthenticatedPeers
    (sent, {
      flood with
      mFloodMap := Function.update mFloodMap (wire.sha256 msg)
        (some { result with mPeersTold := peersTold }) })

def getPeersKnows (flood : Floodgate Message Hash) (getAuthenticatedPeers : List Peer) (h : Hash) :
    List Peer :=
  match flood.mFloodMap h with
  | none => []
  | some record => getAuthenticatedPeers.filter fun peer => wire.toString peer ∈ record.mPeersTold

end Source

/-! ### Telling peers -/

section Telling

variable {wire : Wire Message Hash Peer}

theorem tellPeers_told {peersTold : List String} {peers : List Peer} {address : String} :
    address ∈ (tellPeers wire peersTold peers).1 ↔
      address ∈ peersTold ∨ ∃ peer ∈ (tellPeers wire peersTold peers).2,
        wire.toString peer = address := by
  induction peers generalizing peersTold with
  | nil => simp [tellPeers]
  | cons peer rest ih =>
      unfold tellPeers
      split
      · exact ih
      · change address ∈ (tellPeers wire (peersTold.insert (wire.toString peer)) rest).1 ↔
          _ ∨ ∃ other ∈ peer :: (tellPeers wire (peersTold.insert (wire.toString peer)) rest).2, _
        rw [ih, List.mem_insert_iff, List.exists_mem_cons_iff, or_assoc, eq_comm]
        exact or_left_comm

theorem tellPeers_sent {peersTold : List String} {peers : List Peer} {peer : Peer}
    (sent : peer ∈ (tellPeers wire peersTold peers).2) :
    peer ∈ peers ∧ wire.toString peer ∉ peersTold := by
  induction peers generalizing peersTold with
  | nil => cases sent
  | cons first rest ih =>
      unfold tellPeers at sent
      split at sent
      · obtain ⟨member, untold⟩ := ih sent
        exact ⟨List.mem_cons_of_mem first member, untold⟩
      · rename_i untold
        rcases List.mem_cons.mp sent with rfl | later
        · exact ⟨List.mem_cons_self, untold⟩
        · obtain ⟨member, untold⟩ := ih later
          rw [List.mem_insert_iff, not_or] at untold
          exact ⟨List.mem_cons_of_mem first member, untold.2⟩

theorem tellPeers_distinct (peersTold : List String) (peers : List Peer) :
    ((tellPeers wire peersTold peers).2.map wire.toString).Nodup := by
  induction peers generalizing peersTold with
  | nil => exact List.nodup_nil
  | cons first rest ih =>
      unfold tellPeers
      split
      · exact ih peersTold
      · refine List.nodup_cons.mpr ⟨?_, ih _⟩
        intro repeated
        obtain ⟨other, sent, same⟩ := List.mem_map.mp repeated
        apply (tellPeers_sent sent).2
        rw [same]
        exact List.mem_insert_self

theorem tellPeers_all {peersTold : List String} {peers : List Peer} {peer : Peer}
    (member : peer ∈ peers) : wire.toString peer ∈ (tellPeers wire peersTold peers).1 := by
  induction peers generalizing peersTold with
  | nil => cases member
  | cons first rest ih =>
      unfold tellPeers
      split
      · rename_i told
        rcases List.mem_cons.mp member with rfl | later
        · exact tellPeers_told.mpr (Or.inl told)
        · exact ih later
      · rcases List.mem_cons.mp member with rfl | later
        · exact tellPeers_told.mpr (Or.inl List.mem_insert_self)
        · exact ih later

end Telling

section Records

variable [DecidableEq Hash] {wire : Wire Message Hash Peer} {flood : Floodgate Message Hash}
  {ledger : UInt32} {msg : Message}

theorem addRecord_known (running : flood.mShuttingDown = false) {record : FloodRecord Message}
    (known : flood.mFloodMap (wire.sha256 msg) = some record) (peer : Peer) :
    (addRecord wire flood ledger msg peer).2 = {
      flood with
      mFloodMap := Function.update flood.mFloodMap (wire.sha256 msg)
        (some { record with mPeersTold := record.mPeersTold.insert (wire.toString peer) }) } := by
  unfold addRecord
  dsimp only
  rw [running, known]
  rfl

theorem addRecord_unknown (running : flood.mShuttingDown = false)
    (unknown : flood.mFloodMap (wire.sha256 msg) = none) (peer : Peer) :
    (addRecord wire flood ledger msg peer).2 = {
      flood with
      mFloodMap := Function.update flood.mFloodMap (wire.sha256 msg)
        (some (newRecord wire msg ledger (some peer))) } := by
  unfold addRecord
  dsimp only
  rw [running, unknown]
  rfl

theorem broadcast_known (running : flood.mShuttingDown = false) {record : FloodRecord Message}
    (known : flood.mFloodMap (wire.sha256 msg) = some record) (peers : List Peer) (force : Bool) :
    broadcast wire flood ledger peers msg force =
      ((tellPeers wire record.mPeersTold peers).2, {
        flood with
        mFloodMap := Function.update flood.mFloodMap (wire.sha256 msg)
          (some { record with mPeersTold := (tellPeers wire record.mPeersTold peers).1 }) }) := by
  have found : recordOf wire flood ledger msg force = (flood.mFloodMap, record) := by
    unfold recordOf
    dsimp only
    rw [known]
    cases force with
    | false => rfl
    | true =>
        unfold insertNew
        rw [known]
  unfold broadcast
  rw [running, found]
  rfl

theorem broadcast_unknown (running : flood.mShuttingDown = false)
    (unknown : flood.mFloodMap (wire.sha256 msg) = none) (peers : List Peer) (force : Bool) :
    broadcast wire flood ledger peers msg force =
      ((tellPeers wire [] peers).2, {
        flood with
        mFloodMap := Function.update flood.mFloodMap (wire.sha256 msg)
          (some ⟨ledger, msg, (tellPeers wire [] peers).1⟩) }) := by
  have made : recordOf wire flood ledger msg force =
      (Function.update flood.mFloodMap (wire.sha256 msg) (some ⟨ledger, msg, []⟩),
        ⟨ledger, msg, []⟩) := by
    unfold recordOf insertNew
    dsimp only
    rw [unknown]
    rfl
  unfold broadcast
  rw [running, made]
  dsimp only
  rw [Function.update_idem]
  rfl

end Records

end Floodgate

end ViiCore.Overlay
