import ViiCore.Herder.EnvelopeTracking

/-!
An envelope is released once, when everything it needs has arrived, and is not lost before, in
every run in which the herder keeps accepting it.
-/

namespace ViiCore.Herder.Pending

open ViiCore.FiniteMap
open ViiCore.SCP (SCPQuorumSet isQuorumSetSane buildSingletonQSet)

variable {NodeID Hash TxSet : Type} [DecidableEq NodeID] [DecidableEq Hash]

namespace PendingEnvelopes

variable {sane : Hash → Bool} {kept : SCPEnvelope NodeID Hash → Prop}
  {pending after : PendingEnvelopes NodeID Hash TxSet}

variable (sane kept pending) in
structure Orderly : Prop where
  sound : pending.Sound sane
  apart : pending.Apart
  waits : ∀ envelope, kept envelope → pending.WaitsForMissing envelope ∧ pending.HandedOn envelope

variable (sane kept pending) in
/-- What is promised of the surroundings of a call: no quorum set that is waited for is read from
the database, and the envelopes of interest are accepted by the herder and come from the quorum. -/
structure Meets (around : Surroundings NodeID Hash) : Prop where
  loads : LoadsKnown sane pending around
  accepts : ∀ envelope, kept envelope → around.accepts envelope
  inQuorum : ∀ envelope, kept envelope →
    envelope.nodeID ∈ (pending.refreshQuorum around).mQuorum

variable (sane kept pending) in
/-- Quorum sets come under their hashes, which tell whether they are sane; what was processed is
not discarded. -/
def Allowed : Call NodeID Hash TxSet → Prop
  | .recvSCPEnvelope around _ => Meets sane kept pending around
  | .continueRecv around => Meets sane kept pending around
  | .recvSCPQuorumSet hash q => isQuorumSetSane q false = sane hash
  | .addSCPQuorumSet hash q => isQuorumSetSane q false = sane hash
  | .discardSCPEnvelope envelope =>
      envelope ∉ (pending.mEnvelopes envelope.slotIndex).mProcessedEnvelopes
  | .recvTxSet _ _ => True
  | .addTxSet _ _ _ => True
  | .pop _ => True
  | .rebuildQuorum => True
  | .expand _ => True

/-! ### Steps -/

theorem recvSCPEnvelope_orderly {around : Surroundings NodeID Hash} (sound : pending.Sound sane)
    (apart : pending.Apart) (meets : Meets sane kept pending around)
    (envelope : SCPEnvelope NodeID Hash)
    (waits : ∀ other, kept other → pending.WaitsForMissing other)
    (handedOn : ∀ other, kept other → other ≠ envelope → pending.HandedOn other) :
    (pending.recvSCPEnvelope around envelope).2.Orderly sane kept := by
  have receipt : Receipt pending around envelope _ := recvSCPEnvelope_receipt around
  refine ⟨receipt.sound sound meets.loads, receipt.apart apart, ?_⟩
  intro other isKept
  refine ⟨receipt.waitsForMissing (waits other isKept), ?_⟩
  by_cases same : other = envelope
  · rw [same] at isKept ⊢
    exact receipt.handedOn_own sound (meets.inQuorum envelope isKept)
  · exact receipt.handedOn_other meets.loads same (waits other isKept) (handedOn other isKept same)

omit [DecidableEq NodeID] in
theorem Arrives.orderly {item : Item Hash} (arrives : Arrives pending after item)
    (orderly : pending.Orderly sane kept) (saneItem : item.kind = .quorumSet → sane item.hash) :
    after.Orderly sane kept where
  sound := arrives.sound orderly.sound saneItem
  apart := arrives.apart orderly.apart
  waits := by
    intro envelope isKept
    obtain ⟨waits, handedOn⟩ := orderly.waits envelope isKept
    exact ⟨arrives.waitsForMissing waits, arrives.handedOn waits handedOn⟩

theorem discardSCPEnvelope_orderly (orderly : pending.Orderly sane kept)
    {envelope : SCPEnvelope NodeID Hash}
    (unprocessed : envelope ∉ (pending.mEnvelopes envelope.slotIndex).mProcessedEnvelopes) :
    (pending.discardSCPEnvelope envelope).Orderly sane kept := by
  rcases discardSCPEnvelope_cases pending envelope with same | discards
  · rw [same]
    exact orderly
  · refine ⟨discards.sound orderly.sound, discards.apart orderly.apart unprocessed, ?_⟩
    intro other isKept
    obtain ⟨waits, handedOn⟩ := orderly.waits other isKept
    exact ⟨discards.waitsForMissing waits, discards.handedOn handedOn⟩

theorem discardSCPEnvelope_processed (pending : PendingEnvelopes NodeID Hash TxSet)
    (envelope : SCPEnvelope NodeID Hash) (slot : Nat) :
    ((pending.discardSCPEnvelope envelope).mEnvelopes slot).mProcessedEnvelopes =
      (pending.mEnvelopes slot).mProcessedEnvelopes := by
  rcases discardSCPEnvelope_cases pending envelope with same | discards
  · rw [same]
  · exact discards.processed slot

theorem discardAll_orderly (envelopes : List (SCPEnvelope NodeID Hash))
    (orderly : pending.Orderly sane kept)
    (unprocessed : ∀ envelope ∈ envelopes,
      envelope ∉ (pending.mEnvelopes envelope.slotIndex).mProcessedEnvelopes) :
    (envelopes.foldl discardSCPEnvelope pending).Orderly sane kept := by
  induction envelopes generalizing pending with
  | nil => exact orderly
  | cons envelope envelopes ih =>
      apply ih (discardSCPEnvelope_orderly orderly (unprocessed envelope List.mem_cons_self))
      intro other member
      rw [discardSCPEnvelope_processed]
      exact unprocessed other (List.mem_cons_of_mem envelope member)

omit [DecidableEq NodeID] in
theorem Sound.unprocessed_of_waiting (sound : pending.Sound sane) {hash : Hash}
    (insane : sane hash = false) {envelope : SCPEnvelope NodeID Hash}
    (waits : envelope ∈ pending.waiting ⟨.quorumSet, hash⟩) :
    envelope ∉ (pending.mEnvelopes envelope.slotIndex).mProcessedEnvelopes := by
  intro processed
  have full := (sound.released envelope (sound.processed _ envelope processed).1).2
  unfold isFullyFetched at full
  have cached := List.all_eq_true.mp full _ (sound.needed _ envelope waits)
  rw [sound.saneSets hash cached] at insane
  cases insane

theorem recvSCPQuorumSet_orderly (orderly : pending.Orderly sane kept) {hash : Hash}
    {q : SCPQuorumSet NodeID} (hashed : isQuorumSetSane q false = sane hash) :
    (pending.recvSCPQuorumSet hash q).Orderly sane kept := by
  unfold recvSCPQuorumSet
  split
  · exact orderly
  · split
    · rename_i isSane
      apply (addSCPQuorumSet_arrives hash q).orderly orderly
      intro _
      rw [← hashed]
      exact isSane
    · rename_i insane
      apply discardAll_orderly _ orderly
      intro envelope member
      apply orderly.sound.unprocessed_of_waiting _ member
      rw [← hashed]
      simpa using insane

omit [DecidableEq NodeID] in
theorem Turn.apart {taken : Option (SCPEnvelope NodeID Hash)} (turn : Turn pending after taken)
    (apart : pending.Apart) : after.Apart := by
  unfold Apart
  rw [turn.envelopes]
  exact apart

omit [DecidableEq NodeID] in
theorem Meets.taken {around : Surroundings NodeID Hash} (meets : Meets sane kept pending around)
    (same : SameButTrackers pending after)
    (fewer : ∀ item envelope, envelope ∈ after.waiting item → envelope ∈ pending.waiting item) :
    Meets sane kept after around := by
  have cached := same.cached
  obtain ⟨quorumSets, txSets, rfl⟩ := same
  have quorum : (refreshQuorum { pending with mQuorumSetFetcher := quorumSets, mTxSetFetcher := txSets }
      around).mQuorum = (pending.refreshQuorum around).mQuorum := by
    unfold refreshQuorum
    simp only
    split <;> rfl
  refine ⟨⟨meets.loads.sane, ?_⟩, meets.accepts, ?_⟩
  · intro due hash q member missing
    rw [cached] at missing
    have nobody := meets.loads.unawaited due hash q member missing
    apply List.eq_nil_iff_forall_not_mem.mpr
    intro envelope waits
    have early := fewer _ envelope waits
    rw [nobody] at early
    cases early
  · intro envelope isKept
    rw [quorum]
    exact meets.inQuorum envelope isKept

theorem continueRecv_orderly (orderly : pending.Orderly sane kept)
    {around : Surroundings NodeID Hash} (meets : Meets sane kept pending around) :
    (pending.continueRecv around).Orderly sane kept := by
  obtain ⟨after, taken, turn, is⟩ := continueRecv_turn pending around
  rw [is]
  have sound := turn.sound orderly.sound
  have apart := turn.apart orderly.apart
  have waits : ∀ envelope, kept envelope → after.WaitsForMissing envelope := fun envelope isKept =>
    turn.waitsForMissing orderly.sound (orderly.waits envelope isKept).1
  have handedOn : ∀ envelope, kept envelope → taken ≠ some envelope → after.HandedOn envelope :=
    fun envelope isKept different => turn.handedOn different (orderly.waits envelope isKept).2
  cases turn with
  | idle none_ => exact orderly
  | ends item outer after innermost nobody same waiting =>
      refine ⟨sound, apart, ?_⟩
      intro envelope isKept
      exact ⟨waits envelope isKept, handedOn envelope isKept (fun impossible => by cases impossible)⟩
  | takes item outer envelope after innermost waitsLast same fewer others =>
      unfold handOn
      simp only
      split
      · apply recvSCPEnvelope_orderly sound apart (meets.taken same fewer) envelope waits
        intro other isKept different
        exact handedOn other isKept fun taken => different (Option.some.inj taken).symm
      · rename_i refused
        refine ⟨sound, apart, ?_⟩
        intro other isKept
        refine ⟨waits other isKept, handedOn other isKept ?_⟩
        intro taken
        rw [Option.some.inj taken] at refused
        exact refused (meets.accepts other isKept)

omit [DecidableEq NodeID] in
theorem Orderly.congr (orderly : pending.Orderly sane kept)
    (fetching : ∀ slot, (after.mEnvelopes slot).mFetchingEnvelopes =
      (pending.mEnvelopes slot).mFetchingEnvelopes)
    (processed : ∀ slot, (after.mEnvelopes slot).mProcessedEnvelopes =
      (pending.mEnvelopes slot).mProcessedEnvelopes)
    (discarded : ∀ slot, (after.mEnvelopes slot).mDiscardedEnvelopes =
      (pending.mEnvelopes slot).mDiscardedEnvelopes)
    (released : after.released = pending.released) (cached : after.cached = pending.cached)
    (waiting : after.waiting = pending.waiting) (receiving : after.receiving = pending.receiving) :
    after.Orderly sane kept := by
  obtain ⟨⟨unseen, decodable, isProcessed, isReleased, once, needed, arrived, saneSets⟩, apart, waits⟩ :=
    orderly
  have full : after.isFullyFetched = pending.isFullyFetched := by
    funext envelope
    unfold isFullyFetched
    rw [cached]
  refine ⟨⟨?_, ?_, ?_, ?_, released ▸ once, waiting ▸ needed, ?_, cached ▸ saneSets⟩, ?_, ?_⟩
  · simpa only [fetching, processed, discarded] using unseen
  · simpa only [fetching] using decodable
  · simpa only [processed, released] using isProcessed
  · simpa only [processed, released, full] using isReleased
  · simpa only [receiving, cached] using arrived
  · simpa only [Apart, processed, discarded] using apart
  · simpa only [WaitsForMissing, HandedOn, fetching, cached, waiting, receiving, full] using waits

omit [DecidableEq NodeID] in
theorem pop_orderly (orderly : pending.Orderly sane kept) (slotIndex : Nat) :
    (pending.pop slotIndex).2.Orderly sane kept := by
  unfold pop
  simp only
  split
  · exact orderly
  · rename_i index found
    apply orderly.congr
    · intro slot
      by_cases own : slot = index <;> simp [setSlot, own]
    · intro slot
      by_cases own : slot = index <;> simp [setSlot, own]
    · intro slot
      by_cases own : slot = index <;> simp [setSlot, own]
    · rfl
    · rfl
    · rfl
    · rfl

theorem perform_orderly (orderly : pending.Orderly sane kept) {call : Call NodeID Hash TxSet}
    (allowed : Allowed sane kept pending call) : (pending.perform call).Orderly sane kept := by
  cases call with
  | recvSCPEnvelope around envelope =>
      exact recvSCPEnvelope_orderly orderly.sound orderly.apart allowed envelope
        (fun other isKept => (orderly.waits other isKept).1)
        (fun other isKept _ => (orderly.waits other isKept).2)
  | recvTxSet hash txset =>
      simp only [perform, recvTxSet]
      split
      · exact orderly
      · exact (addTxSet_arrives hash _ txset).orderly orderly (fun kind => by cases kind)
  | recvSCPQuorumSet hash q => exact recvSCPQuorumSet_orderly orderly allowed
  | addTxSet hash lastSeenSlotIndex txset =>
      exact (addTxSet_arrives hash lastSeenSlotIndex txset).orderly orderly (fun kind => by cases kind)
  | addSCPQuorumSet hash q =>
      simp only [perform]
      split
      · rename_i isSane
        exact (addSCPQuorumSet_arrives hash q).orderly orderly fun _ => allowed ▸ isSane
      · exact orderly
  | discardSCPEnvelope envelope => exact discardSCPEnvelope_orderly orderly allowed
  | pop slotIndex => exact pop_orderly orderly slotIndex
  | continueRecv around => exact continueRecv_orderly orderly allowed
  | rebuildQuorum => exact orderly.congr (fun _ => rfl) (fun _ => rfl) (fun _ => rfl) rfl rfl rfl rfl
  | expand nodes => exact orderly.congr (fun _ => rfl) (fun _ => rfl) (fun _ => rfl) rfl rfl rfl rfl

/-! ### Runs -/

variable (sane kept) in
inductive Reachable : PendingEnvelopes NodeID Hash TxSet → Prop
  | start : Reachable (start NodeID Hash TxSet)
  | step {pending : PendingEnvelopes NodeID Hash TxSet} (call : Call NodeID Hash TxSet)
      (reached : Reachable pending) (allowed : Allowed sane kept pending call) :
      Reachable (pending.perform call)

omit [DecidableEq NodeID] in
theorem start_orderly : (start NodeID Hash TxSet).Orderly sane kept where
  sound :=
    { unseen := fun _ _ member => by cases member
      decodable := fun _ _ member => by cases member
      processed := fun _ _ member => by cases member
      released := fun _ member => by cases member
      once := List.nodup_nil
      needed := fun item _ member => by
        obtain ⟨kind, hash⟩ := item
        cases kind <;> cases member
      arrived := fun _ member => by cases member
      saneSets := fun _ held => by cases held }
  apart := fun _ _ member => by cases member
  waits := fun _ _ => ⟨(fun member => by cases member), (fun member => by cases member)⟩

theorem Reachable.orderly (reached : Reachable sane kept pending) : pending.Orderly sane kept := by
  induction reached with
  | start => exact start_orderly
  | step call _ allowed ih => exact perform_orderly ih allowed

omit [DecidableEq NodeID] in
theorem Orderly.listed (orderly : pending.Orderly sane kept) {envelope : SCPEnvelope NodeID Hash}
    (isKept : kept envelope)
    (fetching : envelope ∈ (pending.mEnvelopes envelope.slotIndex).mFetchingEnvelopes) :
    ∃ item, envelope ∈ pending.waiting item ∧
      (item ∈ itemsOf envelope ∧ pending.cached item = false ∨ item ∈ pending.receiving) := by
  obtain ⟨waits, handedOn⟩ := orderly.waits envelope isKept
  cases full : pending.isFullyFetched envelope with
  | true =>
      obtain ⟨item, member, waitsItem⟩ := handedOn fetching full
      exact ⟨item, waitsItem, .inr member⟩
  | false =>
      obtain ⟨item, member, missing⟩ := missing_of_not_full full
      exact ⟨item, waits fetching item member missing, .inl ⟨member, missing⟩⟩

/-- In every run the sets of a slot are disjoint, an envelope is released once and when it is
complete, and an envelope that the herder keeps accepting is listed for something that is missing,
unless it is being handed on. -/
theorem reachable_releasesOnce (reached : Reachable sane kept pending) :
    (∀ slot envelope,
      (envelope ∈ (pending.mEnvelopes slot).mFetchingEnvelopes →
        envelope ∉ (pending.mEnvelopes slot).mProcessedEnvelopes ∧
          envelope ∉ (pending.mEnvelopes slot).mDiscardedEnvelopes) ∧
      (envelope ∈ (pending.mEnvelopes slot).mProcessedEnvelopes →
        envelope ∉ (pending.mEnvelopes slot).mDiscardedEnvelopes)) ∧
    pending.released.Nodup ∧
    (∀ envelope ∈ pending.released, pending.isFullyFetched envelope) ∧
    ∀ envelope, kept envelope →
      envelope ∈ (pending.mEnvelopes envelope.slotIndex).mFetchingEnvelopes →
        ∃ item, envelope ∈ pending.waiting item ∧
          (item ∈ itemsOf envelope ∧ pending.cached item = false ∨ item ∈ pending.receiving) := by
  have orderly := reached.orderly
  refine ⟨?_, orderly.sound.once, fun envelope member => (orderly.sound.released envelope member).2,
    fun envelope isKept fetching => orderly.listed isKept fetching⟩
  intro slot envelope
  exact ⟨orderly.sound.unseen slot envelope, orderly.apart slot envelope⟩

/-! ### Where the herder does not keep to this -/

def pledge : SCPEnvelope Nat Nat :=
  { nodeID := 1, slotIndex := 1, quorumSetHash := 7, txSetHashes := some [8], tag := 0 }

def alone (accepts : Bool) (loaded : List (Nat × SCPQuorumSet Nat)) : Surroundings Nat Nat :=
  { accepts := fun _ => accepts, rebuilt := {1}, loaded }

theorem alone_meets {pending : PendingEnvelopes Nat Nat Unit}
    (known : (pending.refreshQuorum (alone true [])).mQuorum = {1}) :
    Meets (fun _ => true) (fun envelope => envelope = pledge) pending (alone true []) := by
  refine ⟨⟨?_, ?_⟩, ?_, ?_⟩
  · intro hash q loaded
    cases loaded
  · intro due hash q loaded
    cases loaded
  · intro envelope isKept
    rfl
  · intro envelope isKept
    rw [known, isKept]
    decide

/-- The quorum set arrives, then the transaction set, and the envelope is released. -/
theorem reachable_releasesOnce_pledge :
    ∃ pending : PendingEnvelopes Nat Nat Unit,
      Reachable (fun _ => true) (fun envelope => envelope = pledge) pending ∧
        pending.released = [pledge] ∧ pending.released.Nodup := by
  have first := Reachable.step (.recvSCPEnvelope (alone true []) pledge) .start
    (alone_meets (by decide))
  have second := Reachable.step (.recvSCPQuorumSet 7 (buildSingletonQSet 1)) first
    (by change isQuorumSetSane _ _ = _; decide)
  have third := Reachable.step (.continueRecv (alone true [])) second (alone_meets (by decide))
  have fourth := Reachable.step (.recvTxSet 8 ()) third trivial
  have fifth := Reachable.step (.continueRecv (alone true [])) fourth (alone_meets (by decide))
  exact ⟨_, fifth, by decide, (reachable_releasesOnce fifth).2.1⟩

def performAll (calls : List (Call Nat Nat Unit)) : PendingEnvelopes Nat Nat Unit :=
  calls.foldl perform (start Nat Nat Unit)

def discardedLate : List (Call Nat Nat Unit) :=
  [.recvSCPEnvelope (alone true []) pledge,
    .recvSCPQuorumSet 7 (buildSingletonQSet 1), .continueRecv (alone true []),
    .recvTxSet 8 (), .continueRecv (alone true []), .discardSCPEnvelope pledge]

/-- The herder refuses the envelope when the transaction set arrives, since a ledger was closed in
between, and when the quorum set arrives. -/
def refusedLate : List (Call Nat Nat Unit) :=
  [.recvSCPEnvelope (alone true []) pledge,
    .recvTxSet 8 (), .continueRecv (alone false []), .continueRecv (alone false []),
    .recvSCPQuorumSet 7 (buildSingletonQSet 1), .continueRecv (alone false []),
    .continueRecv (alone false [])]

/-- A rebuild of the tracked quorum reads the quorum set from the database. -/
def loadedAside : List (Call Nat Nat Unit) :=
  [.recvSCPEnvelope (alone true []) pledge,
    .recvTxSet 8 (), .continueRecv (alone true []), .continueRecv (alone true []), .rebuildQuorum,
    .recvSCPEnvelope (alone true [(7, buildSingletonQSet 1)])
      { pledge with quorumSetHash := 9, tag := 1 }]

/-- An envelope that was processed can be discarded, and one that is fetched can be lost: no call
of `ItemFetcher::recv` is under way, and the envelope waits for nothing that is missing. -/
theorem pledge_discarded_refused_overlooked :
    (pledge ∈ ((performAll discardedLate).mEnvelopes 1).mProcessedEnvelopes ∧
      pledge ∈ ((performAll discardedLate).mEnvelopes 1).mDiscardedEnvelopes) ∧
    ∀ calls ∈ [refusedLate, loadedAside],
      pledge ∈ ((performAll calls).mEnvelopes 1).mFetchingEnvelopes ∧
        1 ∈ (performAll calls).mQuorum ∧ (performAll calls).receiving = [] ∧
        ¬ ∃ item ∈ itemsOf pledge,
          (performAll calls).cached item = false ∧ pledge ∈ (performAll calls).waiting item := by
  decide

end PendingEnvelopes

end ViiCore.Herder.Pending
