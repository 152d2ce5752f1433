import Mathlib.Data.List.Nodup
import ViiCore.Overlay.Floodgate

/-!
Whom a broadcast reaches.

A log of what happened tells which peers have sent or were sent a message since its record was
made. The floodgate knows addresses instead of peers, and goes by an earlier record even where a
broadcast is forced.
-/

namespace ViiCore.Overlay

namespace Floodgate

variable {Message Hash Peer : Type}

/-! ### What happened -/

inductive Direction where
  | received
  | sent
  deriving DecidableEq

structure Contact (Message Peer : Type) where
  direction : Direction
  msg : Message
  peer : Peer
  deriving DecidableEq

inductive Happening (Message Hash Peer : Type) where
  | created (index : Hash)
  | contact (made : Contact Message Peer)
  deriving DecidableEq

inductive Event (Message Peer : Type) where
  | addRecord (getCurrentLedgerSeq : UInt32) (msg : Message) (peer : Peer)
  | broadcast (getCurrentLedgerSeq : UInt32) (getAuthenticatedPeers : List Peer) (msg : Message)
      (force : Bool)
  | clearBelow (currentLedger : UInt32)

structure Observed (Message Hash Peer : Type) where
  flood : Floodgate Message Hash
  log : List (Happening Message Hash Peer)

section Log

variable [DecidableEq Hash]

def creation (flood : Floodgate Message Hash) (index : Hash) : List (Happening Message Hash Peer) :=
  if (flood.mFloodMap index).isNone then [.created index] else []

def sinceRecord (wire : Wire Message Hash Peer) (index : Hash) :
    List (Happening Message Hash Peer) → List (Contact Message Peer)
  | [] => []
  | .created other :: earlier => if other = index then [] else sinceRecord wire index earlier
  | .contact made :: earlier =>
      if wire.sha256 made.msg = index then made :: sinceRecord wire index earlier
      else sinceRecord wire index earlier

/-- The peer has sent us the message or was sent it, since its record was made. -/
def Contacted (wire : Wire Message Hash Peer) (log : List (Happening Message Hash Peer))
    (msg : Message) (peer : Peer) : Prop :=
  ∃ direction, ⟨direction, msg, peer⟩ ∈ sinceRecord wire (wire.sha256 msg) log

def sentSince [DecidableEq Message] (wire : Wire Message Hash Peer)
    (log : List (Happening Message Hash Peer)) (msg : Message) : List Peer :=
  ((sinceRecord wire (wire.sha256 msg) log).filter fun made =>
    made.direction = .sent ∧ made.msg = msg).map Contact.peer

def record (wire : Wire Message Hash Peer) (observed : Observed Message Hash Peer) (msg : Message)
    (made : List (Contact Message Peer)) : List (Happening Message Hash Peer) :=
  made.map .contact ++ (creation observed.flood (wire.sha256 msg) ++ observed.log)

def step (wire : Wire Message Hash Peer) (observed : Observed Message Hash Peer) :
    Event Message Peer → Observed Message Hash Peer
  | .addRecord ledger msg peer =>
      { flood := (addRecord wire observed.flood ledger msg peer).2
        log := record wire observed msg [⟨.received, msg, peer⟩] }
  | .broadcast ledger peers msg force =>
      let (sent, flood) := broadcast wire observed.flood ledger peers msg force
      { flood
        log := record wire observed msg (sent.reverse.map fun peer => ⟨.sent, msg, peer⟩) }
  | .clearBelow ledger => { observed with flood := observed.flood.clearBelow ledger }

def run (wire : Wire Message Hash Peer) (events : List (Event Message Peer)) :
    Observed Message Hash Peer :=
  events.foldl (step wire) ⟨initial, []⟩

end Log

/-! ### What is known of a hash -/

section Since

variable [DecidableEq Hash] {wire : Wire Message Hash Peer} {index : Hash} {msg : Message}
  {made : List (Contact Message Peer)} {log : List (Happening Message Hash Peer)}
  {observed : Observed Message Hash Peer}

theorem sinceRecord_made (about : ∀ contact ∈ made, contact.msg = msg) :
    sinceRecord wire index (made.map .contact ++ log) =
      if wire.sha256 msg = index then made ++ sinceRecord wire index log
      else sinceRecord wire index log := by
  induction made with
  | nil => exact (ite_self _).symm
  | cons contact others ih =>
      have rest := ih fun other member => about other (List.mem_cons_of_mem contact member)
      rw [List.map_cons, List.cons_append, sinceRecord, rest, about contact List.mem_cons_self]
      split
      · rfl
      · rfl

theorem sinceRecord_record_new (about : ∀ contact ∈ made, contact.msg = msg)
    (unknown : observed.flood.mFloodMap (wire.sha256 msg) = none) :
    sinceRecord wire (wire.sha256 msg) (record wire observed msg made) = made := by
  have started : sinceRecord wire (wire.sha256 msg)
      (creation observed.flood (wire.sha256 msg) ++ observed.log) = [] := by
    rw [creation, unknown]
    exact if_pos rfl
  rw [record, sinceRecord_made about, if_pos rfl, started, List.append_nil]

theorem sinceRecord_record_old (about : ∀ contact ∈ made, contact.msg = msg)
    {known : FloodRecord Message}
    (there : observed.flood.mFloodMap (wire.sha256 msg) = some known) :
    sinceRecord wire (wire.sha256 msg) (record wire observed msg made) =
      made ++ sinceRecord wire (wire.sha256 msg) observed.log := by
  rw [record, sinceRecord_made about, if_pos rfl, creation, there]
  rfl

theorem sinceRecord_record_other (about : ∀ contact ∈ made, contact.msg = msg)
    (different : wire.sha256 msg ≠ index) :
    sinceRecord wire index (record wire observed msg made) =
      sinceRecord wire index observed.log := by
  rw [record, sinceRecord_made about, if_neg different, creation]
  split
  · exact if_neg different
  · rfl

end Since

/-! ### Whom the records tell of -/

section Kept

variable [DecidableEq Hash] {wire : Wire Message Hash Peer}

def Heard (wire : Wire Message Hash Peer) (log : List (Happening Message Hash Peer)) (index : Hash)
    (address : String) : Prop :=
  ∃ made ∈ sinceRecord wire index log, wire.toString made.peer = address

def sentAddresses (wire : Wire Message Hash Peer) (log : List (Happening Message Hash Peer))
    (index : Hash) : List String :=
  ((sinceRecord wire index log).filter fun made => made.direction = .sent).map
    fun made => wire.toString made.peer

structure Kept (wire : Wire Message Hash Peer) (observed : Observed Message Hash Peer) : Prop where
  running : observed.flood.mShuttingDown = false
  told : ∀ index record, observed.flood.mFloodMap index = some record → ∀ address,
    address ∈ record.mPeersTold ↔ Heard wire observed.log index address
  once : ∀ index, (sentAddresses wire observed.log index).Nodup

theorem Kept.initial : Kept wire ⟨Floodgate.initial, []⟩ where
  running := rfl
  told _ _ impossible := by cases impossible
  once _ := List.nodup_nil

variable {observed : Observed Message Hash Peer} {msg : Message} {made : List (Contact Message Peer)}

/-- A call about one message, whose record gets the addresses of those that are contacted. -/
theorem Kept.contacts (kept : Kept wire observed) (about : ∀ contact ∈ made, contact.msg = msg)
    {after : FloodRecord Message}
    (here : ∀ address, address ∈ after.mPeersTold ↔
      (∃ contact ∈ made, wire.toString contact.peer = address) ∨
        ∃ known, observed.flood.mFloodMap (wire.sha256 msg) = some known ∧
          address ∈ known.mPeersTold)
    (distinct : ((made.filter fun contact => contact.direction = .sent).map
      fun contact => wire.toString contact.peer).Nodup)
    (untold : ∀ contact ∈ made, contact.direction = .sent →
      ∀ known, observed.flood.mFloodMap (wire.sha256 msg) = some known →
        wire.toString contact.peer ∉ known.mPeersTold) :
    Kept wire ⟨{
        observed.flood with
        mFloodMap := Function.update observed.flood.mFloodMap (wire.sha256 msg) (some after) },
      record wire observed msg made⟩ where
  running := kept.running
  told index record there address := by
    unfold Heard
    by_cases same : wire.sha256 msg = index
    · subst same
      dsimp only at there
      rw [Function.update_self] at there
      cases there
      rw [here]
      cases before : observed.flood.mFloodMap (wire.sha256 msg) with
      | none =>
          rw [sinceRecord_record_new about before]
          simp
      | some known =>
          rw [sinceRecord_record_old about before]
          have old := kept.told _ known before address
          unfold Heard at old
          simp only [Option.some.injEq, exists_eq_left', List.mem_append, or_and_right, exists_or,
            old]
    · rw [sinceRecord_record_other about same]
      dsimp only at there
      rw [Function.update_of_ne (Ne.symm same)] at there
      exact kept.told index record there address
  once index := by
    unfold sentAddresses
    by_cases same : wire.sha256 msg = index
    · subst same
      cases before : observed.flood.mFloodMap (wire.sha256 msg) with
      | none =>
          rw [sinceRecord_record_new about before]
          exact distinct
      | some known =>
          rw [sinceRecord_record_old about before, List.filter_append, List.map_append]
          refine distinct.append (kept.once _) ?_
          intro address new old
          obtain ⟨contact, member, rfl⟩ := List.mem_map.mp new
          obtain ⟨made, sent⟩ := List.mem_filter.mp member
          obtain ⟨earlier, member, same⟩ := List.mem_map.mp old
          apply untold contact made (of_decide_eq_true sent) known before
          rw [kept.told _ known before]
          exact ⟨earlier, (List.mem_filter.mp member).1, same⟩
    · rw [sinceRecord_record_other about same]
      exact kept.once index

theorem Kept.addRecord (kept : Kept wire observed) (ledger : UInt32) (peer : Peer) :
    Kept wire (step wire observed (.addRecord ledger msg peer)) := by
  have about : ∀ contact ∈ [(⟨.received, msg, peer⟩ : Contact Message Peer)],
      contact.msg = msg ∧ contact.direction = .received := by
    intro contact member
    rw [List.mem_singleton.mp member]
    exact ⟨rfl, rfl⟩
  have unsent : ∀ contact ∈ [(⟨.received, msg, peer⟩ : Contact Message Peer)],
      contact.direction = .sent → ∀ known,
      observed.flood.mFloodMap (wire.sha256 msg) = some known →
        wire.toString contact.peer ∉ known.mPeersTold := by
    intro contact member sent
    rw [(about contact member).2] at sent
    cases sent
  cases before : observed.flood.mFloodMap (wire.sha256 msg) with
  | none =>
      rw [step, addRecord_unknown kept.running before]
      refine kept.contacts (fun contact member => (about contact member).1) ?_ List.nodup_nil unsent
      intro address
      rw [before]
      simp [newRecord, eq_comm]
  | some known =>
      rw [step, addRecord_known kept.running before]
      refine kept.contacts (fun contact member => (about contact member).1) ?_ List.nodup_nil unsent
      intro address
      rw [before]
      simp [eq_comm]

omit [DecidableEq Hash] in
theorem exists_sent {sent : List Peer} {address : String} :
    (∃ contact ∈ sent.reverse.map fun peer => (⟨.sent, msg, peer⟩ : Contact Message Peer),
        wire.toString contact.peer = address) ↔
      ∃ peer ∈ sent, wire.toString peer = address := by
  simp

theorem Kept.broadcast (kept : Kept wire observed) (ledger : UInt32) (peers : List Peer)
    (force : Bool) : Kept wire (step wire observed (.broadcast ledger peers msg force)) := by
  have about : ∀ (sent : List Peer), ∀ contact ∈ sent.reverse.map
      fun peer => (⟨.sent, msg, peer⟩ : Contact Message Peer), contact.msg = msg := by
    intro sent contact member
    obtain ⟨_, _, rfl⟩ := List.mem_map.mp member
    rfl
  have distinct : ∀ told : List String,
      ((((tellPeers wire told peers).2.reverse.map
          fun peer => (⟨.sent, msg, peer⟩ : Contact Message Peer)).filter
        fun contact => contact.direction = .sent).map
          fun contact => wire.toString contact.peer).Nodup := by
    intro told
    have all := List.nodup_reverse.mpr (@tellPeers_distinct _ _ _ wire told peers)
    rw [← List.map_reverse] at all
    rw [List.filter_eq_self.mpr, List.map_map]
    · exact all
    · intro contact member
      obtain ⟨_, _, rfl⟩ := List.mem_map.mp member
      rfl
  cases before : observed.flood.mFloodMap (wire.sha256 msg) with
  | none =>
      rw [step, broadcast_unknown kept.running before]
      refine kept.contacts (about _) ?_ (distinct []) ?_
      · intro address
        rw [before, exists_sent, tellPeers_told]
        simp
      · intro contact member sent known there
        rw [before] at there
        cases there
  | some known =>
      rw [step, broadcast_known kept.running before]
      refine kept.contacts (about _) ?_ (distinct known.mPeersTold) ?_
      · intro address
        rw [before, exists_sent, tellPeers_told]
        simp [or_comm]
      · intro contact member sent record there
        rw [before] at there
        cases there
        obtain ⟨peer, told, rfl⟩ := List.mem_map.mp member
        exact (tellPeers_sent (List.mem_reverse.mp told)).2

theorem Kept.clearBelow (kept : Kept wire observed) (ledger : UInt32) :
    Kept wire (step wire observed (.clearBelow ledger)) where
  running := kept.running
  told index record there := by
    obtain ⟨known, _⟩ := Option.filter_eq_some_iff.mp there
    exact kept.told index record known
  once := kept.once

theorem Kept.step (kept : Kept wire observed) (event : Event Message Peer) :
    Kept wire (step wire observed event) := by
  cases event with
  | addRecord ledger msg peer => exact kept.addRecord ledger peer
  | broadcast ledger peers msg force => exact kept.broadcast ledger peers force
  | clearBelow ledger => exact kept.clearBelow ledger

theorem Kept.run (wire : Wire Message Hash Peer) (events : List (Event Message Peer)) :
    Kept wire (run wire events) := by
  induction events using List.reverseRecOn with
  | nil => exact Kept.initial
  | append_singleton earlier event ih =>
      unfold Floodgate.run
      rw [List.foldl_append]
      exact ih.step event

end Kept

/-! ### Delivery -/

section Delivery

variable [DecidableEq Hash] (wire : Wire Message Hash Peer) (observed : Observed Message Hash Peer)
  (peers : List Peer) (msg : Message) (force : Bool)

/-- The log where the record of a message has been made if there was none. -/
def recordedLog : List (Happening Message Hash Peer) :=
  creation observed.flood (wire.sha256 msg) ++ observed.log

/-- Whom a broadcast is for: every authenticated peer if it is forced, and otherwise those that
have neither sent the message nor were sent it. -/
def Due (peer : Peer) : Prop :=
  peer ∈ peers ∧ (force = true ∨ ¬ Contacted wire (recordedLog wire observed msg) msg peer)

/-- A broadcast reaches whom it is for, and nobody has the message twice. -/
structure Delivers [DecidableEq Message] (ledger : UInt32) : Prop where
  reached : ∀ peer, peer ∈ (Floodgate.broadcast wire observed.flood ledger peers msg force).1 ↔
    Due wire observed peers msg force peer
  once : (sentSince wire (step wire observed (.broadcast ledger peers msg force)).log msg).Nodup

/-- The peers a broadcast is for have addresses of their own, and none that was contacted before. -/
structure Addressed : Prop where
  apart : ∀ peer other, Due wire observed peers msg force peer →
    Due wire observed peers msg force other → wire.toString peer = wire.toString other → peer = other
  fresh : ∀ peer, Due wire observed peers msg force peer →
    ¬ Heard wire (recordedLog wire observed msg) (wire.sha256 msg) (wire.toString peer)

variable {wire observed peers msg force}

theorem Kept.broadcast_sent (kept : Kept wire observed) (ledger : UInt32) :
    ∃ told, (Floodgate.broadcast wire observed.flood ledger peers msg force).1 =
        (tellPeers wire told peers).2 ∧
      ∀ address, address ∈ told ↔
        Heard wire (recordedLog wire observed msg) (wire.sha256 msg) address := by
  unfold recordedLog
  cases before : observed.flood.mFloodMap (wire.sha256 msg) with
  | none =>
      rw [broadcast_unknown kept.running before]
      refine ⟨[], rfl, ?_⟩
      intro address
      have none : sinceRecord wire (wire.sha256 msg)
          (creation observed.flood (wire.sha256 msg) ++ observed.log) = [] := by
        rw [creation, before]
        exact if_pos rfl
      unfold Heard
      rw [none]
      simp
  | some known =>
      rw [broadcast_known kept.running before]
      refine ⟨known.mPeersTold, rfl, ?_⟩
      rw [creation, before]
      exact kept.told _ known before

theorem contacted_heard {log : List (Happening Message Hash Peer)} {peer : Peer}
    (contacted : Contacted wire log msg peer) :
    Heard wire log (wire.sha256 msg) (wire.toString peer) := by
  obtain ⟨direction, made⟩ := contacted
  exact ⟨_, made, rfl⟩

theorem Kept.sentSince_nodup [DecidableEq Message] (kept : Kept wire observed) (msg : Message) :
    (sentSince wire observed.log msg).Nodup := by
  have all : ((((sinceRecord wire (wire.sha256 msg) observed.log).filter
      fun made => made.direction = .sent).map Contact.peer).map wire.toString).Nodup := by
    rw [List.map_map]
    exact kept.once _
  refine (all.of_map).sublist (List.Sublist.map _ ?_)
  apply List.monotone_filter_right
  intro made sent
  exact decide_eq_true (of_decide_eq_true sent).1

theorem sent_iff_due {told : List String}
    (heard : ∀ address, address ∈ told ↔
      Heard wire (recordedLog wire observed msg) (wire.sha256 msg) address)
    (addressed : Addressed wire observed peers msg force) (peer : Peer) :
    peer ∈ (tellPeers wire told peers).2 ↔ Due wire observed peers msg force peer := by
  constructor
  · intro sent
    obtain ⟨member, untold⟩ := tellPeers_sent sent
    refine ⟨member, Or.inr fun contacted => untold ?_⟩
    exact (heard _).mpr (contacted_heard contacted)
  · intro due
    rcases tellPeers_told.mp (@tellPeers_all _ _ _ wire told _ _ due.1) with before | now
    · exact absurd ((heard _).mp before) (addressed.fresh peer due)
    · obtain ⟨other, sent, same⟩ := now
      obtain ⟨member, untold⟩ := tellPeers_sent sent
      have otherDue : Due wire observed peers msg force other :=
        ⟨member, Or.inr fun contacted => untold ((heard _).mpr (contacted_heard contacted))⟩
      rw [addressed.apart peer other due otherDue same.symm]
      exact sent

/-- A broadcast delivers exactly where addresses tell its peers from each other and from those that
were contacted before. -/
theorem broadcast_delivers_iff [DecidableEq Message] (wire : Wire Message Hash Peer)
    (events : List (Event Message Peer)) (ledger : UInt32) (peers : List Peer) (msg : Message)
    (force : Bool) :
    Delivers wire (run wire events) peers msg force ledger ↔
      Addressed wire (run wire events) peers msg force := by
  have kept := Kept.run wire events
  obtain ⟨told, sentIs, heard⟩ := @Kept.broadcast_sent _ _ _ _ _ _ peers msg force kept ledger
  constructor
  · intro delivers
    have sent : ∀ peer, Due wire (run wire events) peers msg force peer →
        peer ∈ (tellPeers wire told peers).2 := by
      intro peer due
      rw [← sentIs]
      exact (delivers.reached peer).mpr due
    constructor
    · intro peer other due otherDue same
      exact List.inj_on_of_nodup_map (tellPeers_distinct told peers) (sent peer due)
        (sent other otherDue) same
    · intro peer due known
      exact (tellPeers_sent (sent peer due)).2 ((heard _).mpr known)
  · intro addressed
    constructor
    · intro peer
      rw [sentIs]
      exact sent_iff_due heard addressed peer
    · exact (kept.step _).sentSince_nodup msg

def sharedWire : Wire Nat Nat Nat where
  sha256 msg := msg
  toString peer := if peer = 0 then "10.0.0.1:11625" else "10.0.0.2:11625"

def repeatedRun : List (Event Nat Nat) :=
  [.broadcast 5 [0] 7 false]

theorem forced_broadcast_undelivered :
    (Due sharedWire (run sharedWire repeatedRun) [0] 7 true 0 ∧
      (Floodgate.broadcast sharedWire (run sharedWire repeatedRun).flood 5 [0] 7 true).1 = [] ∧
      ¬ Delivers sharedWire (run sharedWire repeatedRun) [0] 7 true 5) ∧
    (Due sharedWire (run sharedWire []) [1, 2] 7 false 2 ∧
      (Floodgate.broadcast sharedWire (run sharedWire []).flood 5 [1, 2] 7 false).1 = [1] ∧
      ¬ Delivers sharedWire (run sharedWire []) [1, 2] 7 false 5) := by
  have forced : Due sharedWire (run sharedWire repeatedRun) [0] 7 true 0 :=
    ⟨List.mem_singleton.mpr rfl, Or.inl rfl⟩
  have unforced : Due sharedWire (run sharedWire []) [1, 2] 7 false 2 := by
    refine ⟨by decide, Or.inr ?_⟩
    intro ⟨_, made⟩
    cases made
  refine ⟨⟨forced, rfl, ?_⟩, unforced, rfl, ?_⟩
  · intro delivers
    have reached : 0 ∈ [] := (delivers.reached 0).mpr forced
    cases reached
  · intro delivers
    have reached : 2 ∈ [1] := (delivers.reached 2).mpr unforced
    exact absurd reached (by decide)

end Delivery

end Floodgate

end ViiCore.Overlay
