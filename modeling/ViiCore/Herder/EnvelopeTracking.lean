import ViiCore.Herder.PendingEnvelopes

/-!
What each step does to the sets of envelopes, the caches and the trackers.

An envelope in the fetching set is known to the tracker of every item that it still misses; once
nothing is missing, the loop that hands it on is under way. For each step it is said once what it
changes, and from that what it keeps.
-/

namespace ViiCore.Herder.Pending

open ViiCore.FiniteMap
open ViiCore.SCP (SCPQuorumSet isQuorumSetSane)

variable {NodeID Hash TxSet : Type} [DecidableEq NodeID] [DecidableEq Hash]

/-! ### Trackers -/

namespace ItemFetcher

variable {fetcher : ItemFetcher NodeID Hash}

omit [DecidableEq NodeID] in
theorem fetchingFor_insert (hash other : Hash) (tracker : Tracker NodeID Hash) :
    fetchingFor (fetcher.insert hash tracker) other =
      if other = hash then tracker.mWaitingEnvelopes else fetcher.fetchingFor other := by
  unfold fetchingFor
  by_cases same : other = hash
  · rw [if_pos same, same, AList.lookup_insert]
  · rw [if_neg same, AList.lookup_insert_ne same]

omit [DecidableEq NodeID] in
theorem fetchingFor_fetch (hash other : Hash) (envelope : SCPEnvelope NodeID Hash) :
    fetchingFor (fetcher.fetch hash envelope) other =
      if other = hash then fetcher.fetchingFor hash ++ [envelope] else fetcher.fetchingFor other := by
  have waiting : ∀ tracker, fetcher.lookup hash = some tracker →
      fetcher.fetchingFor hash = tracker.mWaitingEnvelopes := by
    intro tracker found
    rw [fetchingFor, found]
  unfold fetch
  split
  · rename_i absent
    rw [fetchingFor_insert]
    have nothing : fetcher.fetchingFor hash = [] := by
      rw [fetchingFor, absent]
    rw [nothing]
    rfl
  · rename_i tracker found
    rw [fetchingFor_insert, waiting tracker found]
    rfl

theorem fetchingFor_stopFetch (hash other : Hash) (envelope : SCPEnvelope NodeID Hash) :
    fetchingFor (fetcher.stopFetch hash envelope) other =
      if other = hash then (fetcher.fetchingFor hash).filter fun waiting => waiting ≠ envelope
      else fetcher.fetchingFor other := by
  unfold stopFetch
  split
  · rename_i absent
    split
    · rename_i same
      rw [same, fetchingFor, absent]
      rfl
    · rfl
  · rename_i tracker found
    rw [fetchingFor_insert]
    have is : fetcher.fetchingFor hash = tracker.mWaitingEnvelopes := by
      rw [fetchingFor, found]
    rw [is]
    split
    · split <;> rfl
    · rfl

end ItemFetcher

namespace PendingEnvelopes

variable {pending : PendingEnvelopes NodeID Hash TxSet}

variable (pending) in
omit [DecidableEq NodeID] in
def waiting (item : Item Hash) : List (SCPEnvelope NodeID Hash) :=
  (pending.fetcher item.kind).fetchingFor item.hash

omit [DecidableEq NodeID] [DecidableEq Hash] in
theorem fetcher_setFetcher (kind other : Kind) (fetcher : ItemFetcher NodeID Hash) :
    (pending.setFetcher kind fetcher).fetcher other =
      if other = kind then fetcher else pending.fetcher other := by
  cases kind <;> cases other <;> rfl

omit [DecidableEq NodeID] in
theorem waiting_setFetcher (kind : Kind) (fetcher : ItemFetcher NodeID Hash) (item : Item Hash) :
    (pending.setFetcher kind fetcher).waiting item =
      if item.kind = kind then fetcher.fetchingFor item.hash else pending.waiting item := by
  unfold waiting
  rw [fetcher_setFetcher]
  split <;> rfl

def SameButTrackers (before after : PendingEnvelopes NodeID Hash TxSet) : Prop :=
  ∃ quorumSets txSets, after =
    { before with mQuorumSetFetcher := quorumSets, mTxSetFetcher := txSets }

section

omit [DecidableEq NodeID] [DecidableEq Hash]

theorem SameButTrackers.refl (before : PendingEnvelopes NodeID Hash TxSet) :
    SameButTrackers before before := ⟨before.mQuorumSetFetcher, before.mTxSetFetcher, rfl⟩

theorem SameButTrackers.trans {first second third : PendingEnvelopes NodeID Hash TxSet}
    (one : SameButTrackers first second) (other : SameButTrackers second third) :
    SameButTrackers first third := by
  obtain ⟨_, _, rfl⟩ := one
  obtain ⟨quorumSets, txSets, rfl⟩ := other
  exact ⟨quorumSets, txSets, rfl⟩

theorem setFetcher_same (kind : Kind) (fetcher : ItemFetcher NodeID Hash) :
    SameButTrackers pending (pending.setFetcher kind fetcher) := by
  cases kind with
  | quorumSet => exact ⟨fetcher, pending.mTxSetFetcher, rfl⟩
  | txSet => exact ⟨pending.mQuorumSetFetcher, fetcher, rfl⟩

end

omit [DecidableEq NodeID] in
theorem SameButTrackers.cached {before after : PendingEnvelopes NodeID Hash TxSet}
    (same : SameButTrackers before after) (item : Item Hash) :
    after.cached item = before.cached item := by
  obtain ⟨_, _, rfl⟩ := same
  rfl

omit [DecidableEq NodeID] in
theorem waiting_update {fetcher : ItemFetcher NodeID Hash} (head item : Item Hash)
    (others : ∀ hash, hash ≠ head.hash →
      fetcher.fetchingFor hash = (pending.fetcher head.kind).fetchingFor hash) :
    (pending.setFetcher head.kind fetcher).waiting item =
      if item = head then fetcher.fetchingFor head.hash else pending.waiting item := by
  rw [waiting_setFetcher]
  by_cases same : item = head
  · rw [if_pos same, same, if_pos rfl]
  · rw [if_neg same]
    by_cases kind : item.kind = head.kind
    · rw [if_pos kind]
      have different : item.hash ≠ head.hash := by
        intro hash
        apply same
        cases item
        cases head
        cases kind
        cases hash
        rfl
      rw [others item.hash different, ← kind]
      rfl
    · rw [if_neg kind]

variable (pending) in
omit [DecidableEq NodeID] in
theorem fetchMissing_spec (envelope : SCPEnvelope NodeID Hash) (head : Item Hash) :
    SameButTrackers pending (fetchMissing pending envelope head) ∧
      ∀ item other, other ∈ (fetchMissing pending envelope head).waiting item ↔
        other ∈ pending.waiting item ∨
          other = envelope ∧ item = head ∧ pending.cached item = false := by
  unfold fetchMissing
  split
  · rename_i cached
    refine ⟨.refl pending, ?_⟩
    intro item other
    constructor
    · exact .inl
    · rintro (old | ⟨_, rfl, missing⟩)
      · exact old
      · rw [cached] at missing
        cases missing
  · rename_i missing
    refine ⟨setFetcher_same _ _, ?_⟩
    intro item other
    rw [waiting_update head item (fun hash different => by
      rw [ItemFetcher.fetchingFor_fetch, if_neg different])]
    split
    · rename_i same
      rw [ItemFetcher.fetchingFor_fetch, if_pos rfl, List.mem_append, List.mem_singleton, same]
      simp [missing, waiting]
    · rename_i different
      simp [different]

variable (pending) in
omit [DecidableEq NodeID] in
theorem startFetch_spec (envelope : SCPEnvelope NodeID Hash) :
    SameButTrackers pending (pending.startFetch envelope) ∧
      ∀ item other, other ∈ (pending.startFetch envelope).waiting item ↔
        other ∈ pending.waiting item ∨
          other = envelope ∧ item ∈ itemsOf envelope ∧ pending.cached item = false := by
  unfold startFetch
  generalize itemsOf envelope = items
  induction items generalizing pending with
  | nil => exact ⟨.refl pending, fun item other => by simp⟩
  | cons head tail ih =>
      obtain ⟨sameHead, waitsHead⟩ := fetchMissing_spec pending envelope head
      obtain ⟨same, waits⟩ := ih (fetchMissing pending envelope head)
      refine ⟨sameHead.trans same, ?_⟩
      intro item other
      rw [List.foldl_cons, waits, waitsHead, sameHead.cached]
      simp only [List.mem_cons]
      tauto

variable (pending) in
theorem stopItem_spec (envelope : SCPEnvelope NodeID Hash) (head : Item Hash) :
    SameButTrackers pending (stopItem pending envelope head) ∧
      ∀ item other, other ∈ (stopItem pending envelope head).waiting item ↔
        other ∈ pending.waiting item ∧ ¬ (other = envelope ∧ item = head) := by
  unfold stopItem
  refine ⟨setFetcher_same _ _, ?_⟩
  intro item other
  rw [waiting_update head item (fun hash different => by
    rw [ItemFetcher.fetchingFor_stopFetch, if_neg different])]
  split
  · rename_i same
    rw [ItemFetcher.fetchingFor_stopFetch, if_pos rfl, same]
    simp [waiting]
  · rename_i different
    simp [different]

variable (pending) in
theorem stopFetch_spec (envelope : SCPEnvelope NodeID Hash) :
    SameButTrackers pending (pending.stopFetch envelope) ∧
      ∀ item other, other ∈ (pending.stopFetch envelope).waiting item ↔
        other ∈ pending.waiting item ∧ ¬ (other = envelope ∧ item ∈ itemsOf envelope) := by
  unfold stopFetch
  generalize itemsOf envelope = items
  induction items generalizing pending with
  | nil => exact ⟨.refl pending, fun item other => by simp⟩
  | cons head tail ih =>
      obtain ⟨sameHead, waitsHead⟩ := stopItem_spec pending envelope head
      obtain ⟨same, waits⟩ := ih (stopItem pending envelope head)
      refine ⟨sameHead.trans same, ?_⟩
      intro item other
      rw [List.foldl_cons, waits, waitsHead]
      simp only [List.mem_cons]
      tauto

/-! ### What holds of all envelopes -/

section Invariants

variable (pending) (sane : Hash → Bool)

/-- The sets of a slot, what was released, the caches and the trackers agree. -/
structure Sound : Prop where
  unseen : ∀ slot, ∀ envelope ∈ (pending.mEnvelopes slot).mFetchingEnvelopes,
    envelope ∉ (pending.mEnvelopes slot).mProcessedEnvelopes ∧
      envelope ∉ (pending.mEnvelopes slot).mDiscardedEnvelopes
  decodable : ∀ slot, ∀ envelope ∈ (pending.mEnvelopes slot).mFetchingEnvelopes,
    envelope.txSetHashes.isSome ∧ envelope.slotIndex = slot
  processed : ∀ slot, ∀ envelope ∈ (pending.mEnvelopes slot).mProcessedEnvelopes,
    envelope ∈ pending.released ∧ envelope.slotIndex = slot
  released : ∀ envelope ∈ pending.released,
    envelope ∈ (pending.mEnvelopes envelope.slotIndex).mProcessedEnvelopes ∧
      pending.isFullyFetched envelope
  once : pending.released.Nodup
  needed : ∀ item, ∀ envelope ∈ pending.waiting item, item ∈ itemsOf envelope
  arrived : ∀ item ∈ pending.receiving, pending.cached item
  saneSets : ∀ hash, pending.cached ⟨.quorumSet, hash⟩ → sane hash

def Apart : Prop :=
  ∀ slot, ∀ envelope ∈ (pending.mEnvelopes slot).mProcessedEnvelopes,
    envelope ∉ (pending.mEnvelopes slot).mDiscardedEnvelopes

def WaitsForMissing (envelope : SCPEnvelope NodeID Hash) : Prop :=
  envelope ∈ (pending.mEnvelopes envelope.slotIndex).mFetchingEnvelopes →
    ∀ item ∈ itemsOf envelope, pending.cached item = false → envelope ∈ pending.waiting item

/-- Where nothing is missing the envelope is about to be handed on. -/
def HandedOn (envelope : SCPEnvelope NodeID Hash) : Prop :=
  envelope ∈ (pending.mEnvelopes envelope.slotIndex).mFetchingEnvelopes →
    pending.isFullyFetched envelope →
      ∃ item ∈ pending.receiving, envelope ∈ pending.waiting item

end Invariants

/-! ### Caches that grow -/

structure Grows (before after : PendingEnvelopes NodeID Hash TxSet) : Prop where
  envelopes : after.mEnvelopes = before.mEnvelopes
  waiting : after.waiting = before.waiting
  receiving : after.receiving = before.receiving
  released : after.released = before.released
  cached : ∀ item, before.cached item → after.cached item

section Growth

variable {before after : PendingEnvelopes NodeID Hash TxSet} {sane : Hash → Bool}

section

omit [DecidableEq NodeID]

theorem Grows.isFullyFetched (grows : Grows before after) {envelope : SCPEnvelope NodeID Hash}
    (full : before.isFullyFetched envelope) : after.isFullyFetched envelope := by
  unfold PendingEnvelopes.isFullyFetched at full ⊢
  rw [List.all_eq_true] at full ⊢
  intro item member
  exact grows.cached item (full item member)

theorem Grows.sound (grows : Grows before after) (sound : before.Sound sane)
    (saneSets : ∀ hash, after.cached ⟨.quorumSet, hash⟩ → sane hash) : after.Sound sane where
  unseen := by
    rw [grows.envelopes]
    exact sound.unseen
  decodable := by
    rw [grows.envelopes]
    exact sound.decodable
  processed := by
    rw [grows.envelopes, grows.released]
    exact sound.processed
  released := by
    rw [grows.envelopes, grows.released]
    intro envelope member
    obtain ⟨processed, full⟩ := sound.released envelope member
    exact ⟨processed, grows.isFullyFetched full⟩
  once := by
    rw [grows.released]
    exact sound.once
  needed := by
    rw [grows.waiting]
    exact sound.needed
  arrived := by
    rw [grows.receiving]
    exact fun item member => grows.cached item (sound.arrived item member)
  saneSets := saneSets

theorem Grows.apart (grows : Grows before after) (apart : before.Apart) : after.Apart := by
  unfold Apart
  rw [grows.envelopes]
  exact apart

theorem Grows.waitsForMissing (grows : Grows before after) {envelope : SCPEnvelope NodeID Hash}
    (waits : before.WaitsForMissing envelope) : after.WaitsForMissing envelope := by
  unfold WaitsForMissing
  rw [grows.envelopes, grows.waiting]
  intro fetching item member missing
  apply waits fetching item member
  cases cached : before.cached item with
  | false => rfl
  | true =>
      rw [grows.cached item cached] at missing
      cases missing

theorem missing_of_not_full {pending : PendingEnvelopes NodeID Hash TxSet}
    {envelope : SCPEnvelope NodeID Hash}
    (partly : pending.isFullyFetched envelope = false) :
    ∃ item ∈ itemsOf envelope, pending.cached item = false := by
  unfold PendingEnvelopes.isFullyFetched at partly
  simpa using partly

theorem Grows.handedOn (grows : Grows before after) {envelope : SCPEnvelope NodeID Hash}
    (waits : before.WaitsForMissing envelope) (handedOn : before.HandedOn envelope)
    (unawaited : ∀ item, before.cached item = false → after.cached item →
      envelope ∉ before.waiting item) : after.HandedOn envelope := by
  unfold HandedOn
  rw [grows.envelopes, grows.receiving, grows.waiting]
  intro fetching full
  apply handedOn fetching
  cases partly : before.isFullyFetched envelope with
  | true => rfl
  | false =>
      obtain ⟨item, member, missing⟩ := missing_of_not_full partly
      have come : after.cached item := by
        unfold PendingEnvelopes.isFullyFetched at full
        exact List.all_eq_true.mp full item member
      exact absurd (waits fetching item member missing) (unawaited item missing come)

end

end Growth

theorem isSome_lookup_insert {κ ν : Type} [DecidableEq κ] (map : Map κ ν) (key other : κ) (value : ν) :
    ((map.insert key value).lookup other).isSome = (decide (other = key) || (map.lookup other).isSome) := by
  by_cases same : other = key
  · subst same
    simp
  · simp [same, AList.lookup_insert_ne same]

omit [DecidableEq NodeID] in
theorem refreshQuorum_cached (around : Surroundings NodeID Hash) (item : Item Hash) :
    (pending.refreshQuorum around).cached item ↔ pending.cached item ∨
      pending.mRebuildQuorum ∧ item.kind = .quorumSet ∧ ∃ q, (item.hash, q) ∈ around.loaded := by
  have folded : ∀ (loaded : List (Hash × SCPQuorumSet NodeID)) (cache : Map Hash (SCPQuorumSet NodeID)),
      ((loaded.foldl (fun cache found => cache.insert found.1 found.2) cache).lookup item.hash).isSome ↔
        (cache.lookup item.hash).isSome ∨ ∃ q, (item.hash, q) ∈ loaded := by
    intro loaded
    induction loaded with
    | nil => simp
    | cons head tail ih =>
        intro cache
        rw [List.foldl_cons, ih, isSome_lookup_insert, Bool.or_eq_true, decide_eq_true_eq]
        constructor
        · rintro ((same | old) | ⟨q, later⟩)
          · exact .inr ⟨head.2, by rw [same]; exact List.mem_cons_self⟩
          · exact .inl old
          · exact .inr ⟨q, List.mem_cons_of_mem head later⟩
        · rintro (old | ⟨q, member⟩)
          · exact .inl (.inr old)
          · rcases List.mem_cons.mp member with same | later
            · exact .inl (.inl (congrArg Prod.fst same))
            · exact .inr ⟨q, later⟩
  unfold refreshQuorum
  split
  · rename_i due
    cases kind : item.kind with
    | quorumSet => simp [cached, kind, folded, due]
    | txSet => simp [cached, kind]
  · rename_i current
    simp [current]

omit [DecidableEq NodeID] in
theorem refreshQuorum_grows (around : Surroundings NodeID Hash) :
    Grows pending (pending.refreshQuorum around) := by
  have cached : ∀ item, pending.cached item → (pending.refreshQuorum around).cached item :=
    fun item old => (refreshQuorum_cached around item).mpr (.inl old)
  unfold refreshQuorum at cached ⊢
  split
  · rename_i due
    rw [if_pos due] at cached
    exact ⟨rfl, rfl, rfl, rfl, cached⟩
  · exact ⟨rfl, rfl, rfl, rfl, fun _ old => old⟩

variable (pending) in
omit [DecidableEq NodeID] in
theorem touchFetchCache_cached (slotIndex : Nat) (txSetHashes : List Hash) (item : Item Hash) :
    (pending.touchFetchCache slotIndex txSetHashes).cached item = pending.cached item := by
  cases kind : item.kind with
  | quorumSet => simp [cached, kind, touchFetchCache]
  | txSet =>
      simp only [cached, kind, touchFetchCache]
      generalize pending.mTxSetCache = cache
      induction txSetHashes generalizing cache with
      | nil => rfl
      | cons head tail ih =>
          rw [List.foldl_cons, ih]
          split
          · rfl
          · rename_i found present
            rw [isSome_lookup_insert]
            by_cases same : item.hash = head
            · rw [same, present]
              simp
            · simp [same]

variable (pending) in
omit [DecidableEq NodeID] in
theorem touchFetchCache_grows (slotIndex : Nat) (txSetHashes : List Hash) :
    Grows pending (pending.touchFetchCache slotIndex txSetHashes) :=
  ⟨rfl, rfl, rfl, rfl, fun item old => by rw [touchFetchCache_cached]; exact old⟩

/-! ### Receiving an envelope -/

section Receive

variable {before after : PendingEnvelopes NodeID Hash TxSet} {sane : Hash → Bool}
  {envelope : SCPEnvelope NodeID Hash}

variable (before after envelope) in
/-- An envelope is entered into the fetching set, unless it is there, and waits for what it
misses. -/
structure Enters : Prop where
  processed : ∀ slot,
    (after.mEnvelopes slot).mProcessedEnvelopes = (before.mEnvelopes slot).mProcessedEnvelopes
  discarded : ∀ slot,
    (after.mEnvelopes slot).mDiscardedEnvelopes = (before.mEnvelopes slot).mDiscardedEnvelopes
  fetching : ∀ slot other, other ∈ (after.mEnvelopes slot).mFetchingEnvelopes ↔
    other ∈ (before.mEnvelopes slot).mFetchingEnvelopes ∨ slot = envelope.slotIndex ∧ other = envelope
  waiting : ∀ item other, other ∈ after.waiting item ↔
    other ∈ before.waiting item ∨ other = envelope ∧ item ∈ itemsOf envelope ∧
      before.cached item = false ∧
      envelope ∉ (before.mEnvelopes envelope.slotIndex).mFetchingEnvelopes
  cached : ∀ item, after.cached item = before.cached item
  receiving : after.receiving = before.receiving
  released : after.released = before.released

theorem enterFetching_enters : Enters before (before.enterFetching envelope) envelope := by
  unfold enterFetching
  simp only
  split
  · rename_i present
    refine ⟨fun _ => rfl, fun _ => rfl, ?_, ?_, fun _ => rfl, rfl, rfl⟩
    · intro slot other
      constructor
      · exact .inl
      · rintro (old | ⟨rfl, rfl⟩)
        · exact old
        · exact present
    · intro item other
      simp [present]
  · rename_i absent
    obtain ⟨⟨quorumSets, txSets, same⟩, waits⟩ := startFetch_spec
      (before.setSlot envelope.slotIndex
        { before.mEnvelopes envelope.slotIndex with
          mFetchingEnvelopes :=
            insert envelope (before.mEnvelopes envelope.slotIndex).mFetchingEnvelopes }) envelope
    refine ⟨?_, ?_, ?_, ?_, ?_, by rw [same]; rfl, by rw [same]; rfl⟩
    · intro slot
      rw [same]
      by_cases own : slot = envelope.slotIndex <;> simp [setSlot, own]
    · intro slot
      rw [same]
      by_cases own : slot = envelope.slotIndex <;> simp [setSlot, own]
    · intro slot other
      rw [same]
      by_cases own : slot = envelope.slotIndex
      · simp only [setSlot, own, if_true, Finset.mem_insert, true_and]
        exact or_comm
      · simp [setSlot, own]
    · intro item other
      rw [waits]
      simp only [absent, not_false_eq_true, and_true]
      exact Iff.rfl
    · intro item
      rw [same]
      rfl

section

omit [DecidableEq NodeID]

theorem Enters.isFullyFetched (enters : Enters before after envelope)
    (other : SCPEnvelope NodeID Hash) : after.isFullyFetched other = before.isFullyFetched other := by
  unfold PendingEnvelopes.isFullyFetched
  rw [funext enters.cached]

theorem Enters.sound (enters : Enters before after envelope) (sound : before.Sound sane)
    (unprocessed : envelope ∉ (before.mEnvelopes envelope.slotIndex).mProcessedEnvelopes)
    (undiscarded : envelope ∉ (before.mEnvelopes envelope.slotIndex).mDiscardedEnvelopes)
    (decodable : envelope.txSetHashes.isSome) : after.Sound sane where
  unseen := by
    intro slot other fetching
    rw [enters.processed, enters.discarded]
    rcases (enters.fetching slot other).mp fetching with old | ⟨rfl, rfl⟩
    · exact sound.unseen slot other old
    · exact ⟨unprocessed, undiscarded⟩
  decodable := by
    intro slot other fetching
    rcases (enters.fetching slot other).mp fetching with old | ⟨rfl, rfl⟩
    · exact sound.decodable slot other old
    · exact ⟨decodable, rfl⟩
  processed := by
    intro slot other member
    rw [enters.processed] at member
    rw [enters.released]
    exact sound.processed slot other member
  released := by
    intro other member
    rw [enters.released] at member
    rw [enters.processed, enters.isFullyFetched]
    exact sound.released other member
  once := by
    rw [enters.released]
    exact sound.once
  needed := by
    intro item other waits
    rcases (enters.waiting item other).mp waits with old | ⟨rfl, member, _⟩
    · exact sound.needed item other old
    · exact member
  arrived := by
    intro item member
    rw [enters.receiving] at member
    rw [enters.cached]
    exact sound.arrived item member
  saneSets := by
    intro hash cached
    rw [enters.cached] at cached
    exact sound.saneSets hash cached

theorem Enters.apart (enters : Enters before after envelope) (apart : before.Apart) : after.Apart := by
  intro slot other processed
  rw [enters.processed] at processed
  rw [enters.discarded]
  exact apart slot other processed

end

theorem Enters.waitsForMissing (enters : Enters before after envelope)
    {other : SCPEnvelope NodeID Hash} (waits : before.WaitsForMissing other) :
    after.WaitsForMissing other := by
  intro fetching item member missing
  rw [enters.cached] at missing
  rw [enters.waiting]
  by_cases old : other ∈ (before.mEnvelopes other.slotIndex).mFetchingEnvelopes
  · exact .inl (waits old item member missing)
  · rcases (enters.fetching _ _).mp fetching with present | ⟨_, rfl⟩
    · exact absurd present old
    · exact .inr ⟨rfl, member, missing, old⟩

omit [DecidableEq NodeID] in
theorem Enters.handedOn (enters : Enters before after envelope) {other : SCPEnvelope NodeID Hash}
    (different : other ≠ envelope) (handedOn : before.HandedOn other) : after.HandedOn other := by
  intro fetching full
  rw [enters.isFullyFetched] at full
  rcases (enters.fetching _ _).mp fetching with old | ⟨_, same⟩
  · obtain ⟨item, member, waits⟩ := handedOn old full
    refine ⟨item, ?_, (enters.waiting item other).mpr (.inl waits)⟩
    rw [enters.receiving]
    exact member
  · exact absurd same different

variable (before after envelope) in
structure Releases : Prop where
  processed : ∀ slot other, other ∈ (after.mEnvelopes slot).mProcessedEnvelopes ↔
    other ∈ (before.mEnvelopes slot).mProcessedEnvelopes ∨ slot = envelope.slotIndex ∧ other = envelope
  discarded : ∀ slot,
    (after.mEnvelopes slot).mDiscardedEnvelopes = (before.mEnvelopes slot).mDiscardedEnvelopes
  fetching : ∀ slot other, other ∈ (after.mEnvelopes slot).mFetchingEnvelopes ↔
    other ∈ (before.mEnvelopes slot).mFetchingEnvelopes ∧
      ¬ (slot = envelope.slotIndex ∧ other = envelope)
  waiting : after.waiting = before.waiting
  cached : ∀ item, after.cached item = before.cached item
  receiving : after.receiving = before.receiving
  released : after.released = envelope :: before.released

theorem envelopeReady_releases : Releases before (before.envelopeReady envelope) envelope := by
  refine ⟨?_, ?_, ?_, rfl, fun _ => rfl, rfl, rfl⟩
  · intro slot other
    by_cases own : slot = envelope.slotIndex <;> simp [envelopeReady, setSlot, own]
  · intro slot
    by_cases own : slot = envelope.slotIndex <;> simp [envelopeReady, setSlot, own]
  · intro slot other
    by_cases own : slot = envelope.slotIndex
    · simp [envelopeReady, setSlot, own, and_comm]
    · simp [envelopeReady, setSlot, own]

section

omit [DecidableEq NodeID]

theorem Releases.isFullyFetched (releases : Releases before after envelope)
    (other : SCPEnvelope NodeID Hash) : after.isFullyFetched other = before.isFullyFetched other := by
  unfold PendingEnvelopes.isFullyFetched
  rw [funext releases.cached]

theorem Releases.sound (releases : Releases before after envelope) (sound : before.Sound sane)
    (fetching : envelope ∈ (before.mEnvelopes envelope.slotIndex).mFetchingEnvelopes)
    (full : before.isFullyFetched envelope) : after.Sound sane where
  unseen := by
    intro slot other waits
    obtain ⟨old, different⟩ := (releases.fetching slot other).mp waits
    obtain ⟨unprocessed, undiscarded⟩ := sound.unseen slot other old
    rw [releases.processed, releases.discarded]
    refine ⟨?_, undiscarded⟩
    rintro (early | own)
    · exact unprocessed early
    · exact different own
  decodable := by
    intro slot other waits
    exact sound.decodable slot other ((releases.fetching slot other).mp waits).1
  processed := by
    intro slot other member
    rw [releases.released]
    rcases (releases.processed slot other).mp member with old | ⟨rfl, rfl⟩
    · obtain ⟨released, own⟩ := sound.processed slot other old
      exact ⟨List.mem_cons_of_mem envelope released, own⟩
    · exact ⟨List.mem_cons_self, rfl⟩
  released := by
    intro other member
    rw [releases.released] at member
    rw [releases.processed, releases.isFullyFetched]
    rcases List.mem_cons.mp member with rfl | old
    · exact ⟨.inr ⟨rfl, rfl⟩, full⟩
    · obtain ⟨processed, fullOther⟩ := sound.released other old
      exact ⟨.inl processed, fullOther⟩
  once := by
    rw [releases.released, List.nodup_cons]
    refine ⟨?_, sound.once⟩
    intro early
    exact (sound.unseen _ envelope fetching).1 (sound.released envelope early).1
  needed := by
    rw [releases.waiting]
    exact sound.needed
  arrived := by
    intro item member
    rw [releases.receiving] at member
    rw [releases.cached]
    exact sound.arrived item member
  saneSets := by
    intro hash cached
    rw [releases.cached] at cached
    exact sound.saneSets hash cached

theorem Releases.apart (releases : Releases before after envelope) (apart : before.Apart)
    (undiscarded : envelope ∉ (before.mEnvelopes envelope.slotIndex).mDiscardedEnvelopes) :
    after.Apart := by
  intro slot other processed
  rw [releases.discarded]
  rcases (releases.processed slot other).mp processed with old | ⟨rfl, rfl⟩
  · exact apart slot other old
  · exact undiscarded

theorem Releases.waitsForMissing (releases : Releases before after envelope)
    {other : SCPEnvelope NodeID Hash} (waits : before.WaitsForMissing other) :
    after.WaitsForMissing other := by
  intro fetching item member missing
  rw [releases.cached] at missing
  rw [releases.waiting]
  exact waits ((releases.fetching _ _).mp fetching).1 item member missing

theorem Releases.handedOn (releases : Releases before after envelope)
    {other : SCPEnvelope NodeID Hash} (handedOn : other ≠ envelope → before.HandedOn other) :
    after.HandedOn other := by
  intro fetching full
  obtain ⟨old, different⟩ := (releases.fetching _ _).mp fetching
  rw [releases.isFullyFetched] at full
  rw [releases.receiving, releases.waiting]
  apply handedOn _ old full
  intro same
  exact different ⟨congrArg SCPEnvelope.slotIndex same, same⟩

end

inductive Receipt (pending : PendingEnvelopes NodeID Hash TxSet) (around : Surroundings NodeID Hash)
    (envelope : SCPEnvelope NodeID Hash) (after : PendingEnvelopes NodeID Hash TxSet) : Prop
  | dropped
      (why : envelope.nodeID ∈ (pending.refreshQuorum around).mQuorum →
        (pending.refreshQuorum around).isDiscarded envelope ∨ envelope.txSetHashes = none)
      (is : after = pending.refreshQuorum around)
  | again (touched : PendingEnvelopes NodeID Hash TxSet)
      (grows : Grows (pending.refreshQuorum around) touched)
      (cached : ∀ item, touched.cached item = (pending.refreshQuorum around).cached item)
      (known : envelope ∉ (touched.mEnvelopes envelope.slotIndex).mFetchingEnvelopes)
      (is : after = touched)
  | entered (touched entered : PendingEnvelopes NodeID Hash TxSet)
      (grows : Grows (pending.refreshQuorum around) touched)
      (cached : ∀ item, touched.cached item = (pending.refreshQuorum around).cached item)
      (undiscarded : (pending.refreshQuorum around).isDiscarded envelope = false)
      (decodable : envelope.txSetHashes.isSome)
      (unprocessed : envelope ∉ (touched.mEnvelopes envelope.slotIndex).mFetchingEnvelopes →
        envelope ∉ (touched.mEnvelopes envelope.slotIndex).mProcessedEnvelopes)
      (enters : Enters touched entered envelope)
      (then_ : entered.isFullyFetched envelope = false ∧ after = entered ∨
        entered.isFullyFetched envelope ∧ Releases entered after envelope)

theorem recvSCPEnvelope_receipt (around : Surroundings NodeID Hash) :
    Receipt pending around envelope (pending.recvSCPEnvelope around envelope).2 := by
  unfold recvSCPEnvelope
  simp only
  split
  · rename_i outside
    exact .dropped (fun inside => absurd inside outside) rfl
  · split
    · rename_i discarded
      exact .dropped (fun _ => .inl discarded) rfl
    · rename_i undiscarded
      split
      · rename_i corrupt
        exact .dropped (fun _ => .inr corrupt) rfl
      · rename_i txSetHashes decoded
        have grows := touchFetchCache_grows (pending.refreshQuorum around) envelope.slotIndex
          txSetHashes
        have cached := touchFetchCache_cached (pending.refreshQuorum around) envelope.slotIndex
          txSetHashes
        split
        · rename_i known
          exact .again _ grows cached known.1 rfl
        · rename_i fresh
          have unprocessed := fun absent processed => fresh ⟨absent, processed⟩
          have enters : Enters ((pending.refreshQuorum around).touchFetchCache envelope.slotIndex
              txSetHashes) _ envelope := enterFetching_enters
          have decodable : envelope.txSetHashes.isSome := by
            rw [decoded]
            rfl
          split
          · rename_i full
            exact .entered _ _ grows cached (by simpa using undiscarded) decodable unprocessed enters
              (.inr ⟨full, envelopeReady_releases⟩)
          · rename_i partly
            exact .entered _ _ grows cached (by simpa using undiscarded) decodable unprocessed enters
              (.inl ⟨by simpa using partly, rfl⟩)

/-- The quorum sets that a rebuild reads are sane, and none of them is waited for. -/
structure LoadsKnown (sane : Hash → Bool) (pending : PendingEnvelopes NodeID Hash TxSet)
    (around : Surroundings NodeID Hash) : Prop where
  sane : ∀ hash q, (hash, q) ∈ around.loaded → sane hash
  unawaited : pending.mRebuildQuorum → ∀ hash q, (hash, q) ∈ around.loaded →
    pending.cached ⟨.quorumSet, hash⟩ = false → pending.waiting ⟨.quorumSet, hash⟩ = []

variable {around : Surroundings NodeID Hash}

omit [DecidableEq NodeID] in
theorem refreshQuorum_sound (sound : pending.Sound sane) (known : LoadsKnown sane pending around) :
    (pending.refreshQuorum around).Sound sane := by
  apply (refreshQuorum_grows around).sound sound
  intro hash cached
  rcases (refreshQuorum_cached around _).mp cached with old | ⟨_, _, q, member⟩
  · exact sound.saneSets hash old
  · exact known.sane hash q member

omit [DecidableEq NodeID] in
theorem refreshQuorum_handedOn (known : LoadsKnown sane pending around)
    (waits : pending.WaitsForMissing envelope) (handedOn : pending.HandedOn envelope) :
    (pending.refreshQuorum around).HandedOn envelope := by
  apply (refreshQuorum_grows around).handedOn waits handedOn
  intro item missing cached
  rcases (refreshQuorum_cached around item).mp cached with old | ⟨due, kind, q, member⟩
  · rw [missing] at old
    cases old
  · have named : item = ⟨.quorumSet, item.hash⟩ := by
      rw [← kind]
    rw [named] at missing ⊢
    rw [known.unawaited due item.hash q member missing]
    exact List.not_mem_nil

theorem Receipt.sound (receipt : Receipt pending around envelope after) (sound : pending.Sound sane)
    (known : LoadsKnown sane pending around) : after.Sound sane := by
  have refreshed := refreshQuorum_sound sound known
  cases receipt with
  | dropped why is =>
      rw [is]
      exact refreshed
  | again touched grows cached fresh is =>
      rw [is]
      exact grows.sound refreshed fun hash held => refreshed.saneSets hash (cached _ ▸ held)
  | entered touched entered grows cached undiscarded decodable unprocessed enters then_ =>
      have touchedSound := grows.sound refreshed fun hash held =>
        refreshed.saneSets hash (cached _ ▸ held)
      have notDiscarded : envelope ∉ (touched.mEnvelopes envelope.slotIndex).mDiscardedEnvelopes := by
        rw [grows.envelopes]
        exact of_decide_eq_false undiscarded
      have notProcessed : envelope ∉ (touched.mEnvelopes envelope.slotIndex).mProcessedEnvelopes := by
        by_cases fetching : envelope ∈ (touched.mEnvelopes envelope.slotIndex).mFetchingEnvelopes
        · exact (touchedSound.unseen _ envelope fetching).1
        · exact unprocessed fetching
      have enteredSound := enters.sound touchedSound notProcessed notDiscarded decodable
      rcases then_ with ⟨_, is⟩ | ⟨full, releases⟩
      · rw [is]
        exact enteredSound
      · exact releases.sound enteredSound ((enters.fetching _ _).mpr (.inr ⟨rfl, rfl⟩)) full

theorem Receipt.apart (receipt : Receipt pending around envelope after) (apart : pending.Apart) :
    after.Apart := by
  have refreshed := (refreshQuorum_grows around).apart apart
  cases receipt with
  | dropped why is =>
      rw [is]
      exact refreshed
  | again touched grows cached fresh is =>
      rw [is]
      exact grows.apart refreshed
  | entered touched entered grows cached undiscarded decodable unprocessed enters then_ =>
      have enteredApart := enters.apart (grows.apart refreshed)
      rcases then_ with ⟨_, is⟩ | ⟨full, releases⟩
      · rw [is]
        exact enteredApart
      · apply releases.apart enteredApart
        rw [enters.discarded, grows.envelopes]
        exact of_decide_eq_false undiscarded

theorem Receipt.waitsForMissing (receipt : Receipt pending around envelope after)
    {other : SCPEnvelope NodeID Hash} (waits : pending.WaitsForMissing other) :
    after.WaitsForMissing other := by
  have refreshed := (refreshQuorum_grows around).waitsForMissing waits
  cases receipt with
  | dropped why is =>
      rw [is]
      exact refreshed
  | again touched grows cached fresh is =>
      rw [is]
      exact grows.waitsForMissing refreshed
  | entered touched entered grows cached undiscarded decodable unprocessed enters then_ =>
      have enteredWaits := enters.waitsForMissing (grows.waitsForMissing refreshed)
      rcases then_ with ⟨_, is⟩ | ⟨full, releases⟩
      · rw [is]
        exact enteredWaits
      · exact releases.waitsForMissing enteredWaits

theorem Receipt.handedOn_own (receipt : Receipt pending around envelope after)
    (sound : pending.Sound sane)
    (inQuorum : envelope.nodeID ∈ (pending.refreshQuorum around).mQuorum) :
    after.HandedOn envelope := by
  have same : (pending.refreshQuorum around).mEnvelopes = pending.mEnvelopes :=
    (refreshQuorum_grows around).envelopes
  cases receipt with
  | dropped why is =>
      intro fetching
      rw [is, same] at fetching
      rcases why inQuorum with discarded | corrupt
      · rw [isDiscarded, decide_eq_true_eq, same] at discarded
        exact absurd discarded (sound.unseen _ envelope fetching).2
      · have decodable := (sound.decodable _ envelope fetching).1
        rw [corrupt] at decodable
        cases decodable
  | again touched grows cached fresh is =>
      intro fetching
      rw [is] at fetching
      exact absurd fetching fresh
  | entered touched entered grows cached undiscarded decodable unprocessed enters then_ =>
      rcases then_ with ⟨partly, is⟩ | ⟨full, releases⟩
      · intro _ full
        rw [is, partly] at full
        cases full
      · exact releases.handedOn fun different => absurd rfl different

theorem Receipt.handedOn_other (receipt : Receipt pending around envelope after)
    (known : LoadsKnown sane pending around) {other : SCPEnvelope NodeID Hash}
    (different : other ≠ envelope) (waits : pending.WaitsForMissing other)
    (handedOn : pending.HandedOn other) : after.HandedOn other := by
  have refreshedWaits := (refreshQuorum_grows around).waitsForMissing waits
  have refreshed := refreshQuorum_handedOn known waits handedOn
  have nothingNew : ∀ touched : PendingEnvelopes NodeID Hash TxSet,
      (∀ item, touched.cached item = (pending.refreshQuorum around).cached item) →
      ∀ item, (pending.refreshQuorum around).cached item = false → touched.cached item →
        other ∉ (pending.refreshQuorum around).waiting item := by
    intro touched cached item missing held
    rw [cached, missing] at held
    cases held
  cases receipt with
  | dropped why is =>
      rw [is]
      exact refreshed
  | again touched grows cached fresh is =>
      rw [is]
      exact grows.handedOn refreshedWaits refreshed (nothingNew touched cached)
  | entered touched entered grows cached undiscarded decodable unprocessed enters then_ =>
      have enteredHandedOn := enters.handedOn different
        (grows.handedOn refreshedWaits refreshed (nothingNew touched cached))
      rcases then_ with ⟨_, is⟩ | ⟨full, releases⟩
      · rw [is]
        exact enteredHandedOn
      · exact releases.handedOn fun _ => enteredHandedOn

end Receive

/-! ### Discarding an envelope -/

section Discard

variable {before after : PendingEnvelopes NodeID Hash TxSet} {sane : Hash → Bool}
  {envelope : SCPEnvelope NodeID Hash}

variable (before after envelope) in
structure Discards : Prop where
  processed : ∀ slot,
    (after.mEnvelopes slot).mProcessedEnvelopes = (before.mEnvelopes slot).mProcessedEnvelopes
  discarded : ∀ slot other, other ∈ (after.mEnvelopes slot).mDiscardedEnvelopes ↔
    other ∈ (before.mEnvelopes slot).mDiscardedEnvelopes ∨ slot = envelope.slotIndex ∧ other = envelope
  fetching : ∀ slot other, other ∈ (after.mEnvelopes slot).mFetchingEnvelopes ↔
    other ∈ (before.mEnvelopes slot).mFetchingEnvelopes ∧
      ¬ (slot = envelope.slotIndex ∧ other = envelope)
  waiting : ∀ item other, other ∈ after.waiting item ↔
    other ∈ before.waiting item ∧ ¬ (other = envelope ∧ item ∈ itemsOf envelope)
  cached : ∀ item, after.cached item = before.cached item
  receiving : after.receiving = before.receiving
  released : after.released = before.released

theorem discardSCPEnvelope_cases (before : PendingEnvelopes NodeID Hash TxSet)
    (envelope : SCPEnvelope NodeID Hash) :
    before.discardSCPEnvelope envelope = before ∨
      Discards before (before.discardSCPEnvelope envelope) envelope := by
  unfold discardSCPEnvelope
  split
  · exact .inl rfl
  · right
    obtain ⟨⟨quorumSets, txSets, same⟩, waits⟩ := stopFetch_spec
      (before.setSlot envelope.slotIndex
        { before.mEnvelopes envelope.slotIndex with
          mDiscardedEnvelopes :=
            insert envelope (before.mEnvelopes envelope.slotIndex).mDiscardedEnvelopes
          mFetchingEnvelopes :=
            (before.mEnvelopes envelope.slotIndex).mFetchingEnvelopes.erase envelope }) envelope
    refine ⟨?_, ?_, ?_, waits, ?_, by rw [same]; rfl, by rw [same]; rfl⟩
    · intro slot
      rw [same]
      by_cases own : slot = envelope.slotIndex <;> simp [setSlot, own]
    · intro slot other
      rw [same]
      by_cases own : slot = envelope.slotIndex
      · simp only [setSlot, own, if_true, Finset.mem_insert, true_and]
        exact or_comm
      · simp [setSlot, own]
    · intro slot other
      rw [same]
      by_cases own : slot = envelope.slotIndex
      · simp [setSlot, own, and_comm]
      · simp [setSlot, own]
    · intro item
      rw [same]
      rfl

section

omit [DecidableEq NodeID]

theorem Discards.isFullyFetched (discards : Discards before after envelope)
    (other : SCPEnvelope NodeID Hash) : after.isFullyFetched other = before.isFullyFetched other := by
  unfold PendingEnvelopes.isFullyFetched
  rw [funext discards.cached]

theorem Discards.sound (discards : Discards before after envelope) (sound : before.Sound sane) :
    after.Sound sane where
  unseen := by
    intro slot other waits
    obtain ⟨old, different⟩ := (discards.fetching slot other).mp waits
    obtain ⟨unprocessed, undiscarded⟩ := sound.unseen slot other old
    rw [discards.processed, discards.discarded]
    refine ⟨unprocessed, ?_⟩
    rintro (early | own)
    · exact undiscarded early
    · exact different own
  decodable := by
    intro slot other waits
    exact sound.decodable slot other ((discards.fetching slot other).mp waits).1
  processed := by
    intro slot other member
    rw [discards.processed] at member
    rw [discards.released]
    exact sound.processed slot other member
  released := by
    intro other member
    rw [discards.released] at member
    rw [discards.processed, discards.isFullyFetched]
    exact sound.released other member
  once := by
    rw [discards.released]
    exact sound.once
  needed := by
    intro item other waits
    exact sound.needed item other ((discards.waiting item other).mp waits).1
  arrived := by
    intro item member
    rw [discards.receiving] at member
    rw [discards.cached]
    exact sound.arrived item member
  saneSets := by
    intro hash cached
    rw [discards.cached] at cached
    exact sound.saneSets hash cached

theorem Discards.apart (discards : Discards before after envelope) (apart : before.Apart)
    (unprocessed : envelope ∉ (before.mEnvelopes envelope.slotIndex).mProcessedEnvelopes) :
    after.Apart := by
  intro slot other processed
  rw [discards.processed] at processed
  rw [discards.discarded]
  rintro (old | ⟨rfl, rfl⟩)
  · exact apart slot other processed old
  · exact unprocessed processed

theorem Discards.different (discards : Discards before after envelope)
    {other : SCPEnvelope NodeID Hash}
    (fetching : other ∈ (after.mEnvelopes other.slotIndex).mFetchingEnvelopes) :
    other ∈ (before.mEnvelopes other.slotIndex).mFetchingEnvelopes ∧ other ≠ envelope := by
  obtain ⟨old, different⟩ := (discards.fetching _ _).mp fetching
  refine ⟨old, ?_⟩
  intro same
  exact different ⟨congrArg SCPEnvelope.slotIndex same, same⟩

theorem Discards.waitsForMissing (discards : Discards before after envelope)
    {other : SCPEnvelope NodeID Hash} (waits : before.WaitsForMissing other) :
    after.WaitsForMissing other := by
  intro fetching item member missing
  obtain ⟨old, different⟩ := discards.different fetching
  rw [discards.cached] at missing
  exact (discards.waiting _ _).mpr ⟨waits old item member missing, fun own => different own.1⟩

theorem Discards.handedOn (discards : Discards before after envelope)
    {other : SCPEnvelope NodeID Hash} (handedOn : before.HandedOn other) : after.HandedOn other := by
  intro fetching full
  obtain ⟨old, different⟩ := discards.different fetching
  rw [discards.isFullyFetched] at full
  obtain ⟨item, member, waits⟩ := handedOn old full
  rw [discards.receiving]
  exact ⟨item, member, (discards.waiting _ _).mpr ⟨waits, fun own => different own.1⟩⟩

end

end Discard

/-! ### Items that arrive -/

section Arrive

variable {before after : PendingEnvelopes NodeID Hash TxSet} {sane : Hash → Bool}
  {envelope : SCPEnvelope NodeID Hash} {item : Item Hash}

variable (before after item) in
structure Arrives : Prop where
  envelopes : after.mEnvelopes = before.mEnvelopes
  waiting : after.waiting = before.waiting
  released : after.released = before.released
  cached : ∀ other, after.cached other ↔ before.cached other ∨ other = item
  receiving : ∀ other, other ∈ after.receiving → other ∈ before.receiving ∨ other = item
  kept : ∀ other, other ∈ before.receiving → other ∈ after.receiving
  begun : ∀ waits ∈ before.waiting item, item ∈ after.receiving

section

omit [DecidableEq NodeID]

theorem beginRecv_arrives {cachedNow : PendingEnvelopes NodeID Hash TxSet}
    (envelopes : cachedNow.mEnvelopes = before.mEnvelopes)
    (fetchers : cachedNow.fetcher = before.fetcher) (released : cachedNow.released = before.released)
    (receiving : cachedNow.receiving = before.receiving)
    (cached : ∀ other, cachedNow.cached other ↔ before.cached other ∨ other = item) :
    Arrives before (cachedNow.beginRecv item) item := by
  have waiting : cachedNow.waiting = before.waiting := by
    funext other
    unfold PendingEnvelopes.waiting
    rw [fetchers]
  unfold beginRecv
  split
  · rename_i absent
    refine ⟨envelopes, waiting, released, cached, ?_, ?_, ?_⟩
    · intro other member
      exact .inl (receiving ▸ member)
    · intro other member
      exact receiving ▸ member
    · intro waits member
      rw [← waiting, PendingEnvelopes.waiting, ItemFetcher.fetchingFor, absent] at member
      cases member
  · refine ⟨envelopes, waiting, released, cached, ?_, ?_, ?_⟩
    · intro other member
      rcases List.mem_cons.mp member with same | old
      · exact .inr same
      · exact .inl (receiving ▸ old)
    · intro other member
      exact List.mem_cons_of_mem item (receiving ▸ member)
    · exact fun _ _ => List.mem_cons_self

theorem addSCPQuorumSet_arrives (hash : Hash) (q : SCPQuorumSet NodeID) :
    Arrives before (before.addSCPQuorumSet hash q) ⟨.quorumSet, hash⟩ := by
  refine beginRecv_arrives rfl (funext fun kind => by cases kind <;> rfl) rfl rfl ?_
  intro other
  obtain ⟨kind, hash'⟩ := other
  cases kind with
  | quorumSet =>
      simp only [cached, isSome_lookup_insert, Bool.or_eq_true, decide_eq_true_eq, Item.mk.injEq,
        true_and]
      exact or_comm
  | txSet => simp [cached]

theorem addTxSet_arrives (hash : Hash) (lastSeenSlotIndex : Nat) (txset : TxSet) :
    Arrives before (before.addTxSet hash lastSeenSlotIndex txset) ⟨.txSet, hash⟩ := by
  refine beginRecv_arrives rfl (funext fun kind => by cases kind <;> rfl) rfl rfl ?_
  intro other
  obtain ⟨kind, hash'⟩ := other
  cases kind with
  | quorumSet => simp [cached]
  | txSet =>
      simp only [cached, isSome_lookup_insert, Bool.or_eq_true, decide_eq_true_eq, Item.mk.injEq,
        true_and]
      exact or_comm

theorem Arrives.sound (arrives : Arrives before after item) (sound : before.Sound sane)
    (saneItem : item.kind = .quorumSet → sane item.hash) : after.Sound sane where
  unseen := by
    rw [arrives.envelopes]
    exact sound.unseen
  decodable := by
    rw [arrives.envelopes]
    exact sound.decodable
  processed := by
    rw [arrives.envelopes, arrives.released]
    exact sound.processed
  released := by
    rw [arrives.envelopes, arrives.released]
    intro envelope member
    obtain ⟨processed, full⟩ := sound.released envelope member
    refine ⟨processed, ?_⟩
    unfold PendingEnvelopes.isFullyFetched at full ⊢
    rw [List.all_eq_true] at full ⊢
    exact fun needed inNeeded => (arrives.cached needed).mpr (.inl (full needed inNeeded))
  once := by
    rw [arrives.released]
    exact sound.once
  needed := by
    rw [arrives.waiting]
    exact sound.needed
  arrived := by
    intro other member
    rw [arrives.cached]
    rcases arrives.receiving other member with old | same
    · exact .inl (sound.arrived other old)
    · exact .inr same
  saneSets := by
    intro hash cached
    rcases (arrives.cached _).mp cached with old | same
    · exact sound.saneSets hash old
    · have kind : item.kind = .quorumSet := by
        rw [← same]
      have named := saneItem kind
      rw [← same] at named
      exact named

theorem Arrives.apart (arrives : Arrives before after item) (apart : before.Apart) : after.Apart := by
  unfold Apart
  rw [arrives.envelopes]
  exact apart

theorem Arrives.missing (arrives : Arrives before after item) {other : Item Hash}
    (missing : after.cached other = false) : before.cached other = false := by
  cases old : before.cached other with
  | false => rfl
  | true =>
      rw [(arrives.cached other).mpr (.inl old)] at missing
      cases missing

theorem Arrives.waitsForMissing (arrives : Arrives before after item)
    (waits : before.WaitsForMissing envelope) : after.WaitsForMissing envelope := by
  unfold WaitsForMissing
  rw [arrives.envelopes, arrives.waiting]
  exact fun fetching other member missing => waits fetching other member (arrives.missing missing)

theorem Arrives.handedOn (arrives : Arrives before after item)
    (waits : before.WaitsForMissing envelope) (handedOn : before.HandedOn envelope) :
    after.HandedOn envelope := by
  unfold HandedOn
  rw [arrives.envelopes, arrives.waiting]
  intro fetching full
  cases partly : before.isFullyFetched envelope with
  | true =>
      obtain ⟨other, member, waitsOther⟩ := handedOn fetching partly
      exact ⟨other, arrives.kept other member, waitsOther⟩
  | false =>
      obtain ⟨other, member, missing⟩ := missing_of_not_full partly
      have come : after.cached other := by
        unfold PendingEnvelopes.isFullyFetched at full
        exact List.all_eq_true.mp full other member
      have same : other = item := by
        rcases (arrives.cached other).mp come with old | same
        · rw [missing] at old
          cases old
        · exact same
      have waitsItem := waits fetching other member missing
      rw [same] at waitsItem
      exact ⟨item, arrives.begun envelope waitsItem, waitsItem⟩

end

/-! ### The loop over those that wait -/

inductive Turn (before : PendingEnvelopes NodeID Hash TxSet) : PendingEnvelopes NodeID Hash TxSet →
    Option (SCPEnvelope NodeID Hash) → Prop
  | idle (none_ : before.receiving = []) : Turn before before none
  | ends (item : Item Hash) (outer : List (Item Hash)) (after : PendingEnvelopes NodeID Hash TxSet)
      (innermost : before.receiving = item :: outer) (nobody : before.waiting item = [])
      (same : SameButTrackers { before with receiving := outer } after)
      (waiting : after.waiting = before.waiting) : Turn before after none
  | takes (item : Item Hash) (outer : List (Item Hash)) (envelope : SCPEnvelope NodeID Hash)
      (after : PendingEnvelopes NodeID Hash TxSet) (innermost : before.receiving = item :: outer)
      (waits : envelope ∈ before.waiting item) (same : SameButTrackers before after)
      (fewer : ∀ other waits, waits ∈ after.waiting other → waits ∈ before.waiting other)
      (others : ∀ other waits, waits ∈ before.waiting other → waits ≠ envelope ∨ other ≠ item →
        waits ∈ after.waiting other) : Turn before after (some envelope)

def handOn (around : Surroundings NodeID Hash) (taken : Option (SCPEnvelope NodeID Hash))
    (pending : PendingEnvelopes NodeID Hash TxSet) : PendingEnvelopes NodeID Hash TxSet :=
  match taken with
  | none => pending
  | some envelope =>
      if around.accepts envelope then (pending.recvSCPEnvelope around envelope).2 else pending

omit [DecidableEq NodeID] in
theorem waiting_replace (item other : Item Hash) (tracker : Tracker NodeID Hash) :
    (before.setFetcher item.kind ((before.fetcher item.kind).insert item.hash tracker)).waiting other =
      if other = item then tracker.mWaitingEnvelopes else before.waiting other := by
  rw [waiting_update item other (fun hash different => by
    rw [ItemFetcher.fetchingFor_insert, if_neg different])]
  rw [ItemFetcher.fetchingFor_insert, if_pos rfl]

variable (before) in
theorem continueRecv_turn (around : Surroundings NodeID Hash) :
    ∃ after taken, Turn before after taken ∧ before.continueRecv around = handOn around taken after := by
  unfold continueRecv
  split
  · rename_i empty
    exact ⟨before, none, .idle empty, rfl⟩
  · rename_i item outer innermost
    split
    · rename_i absent
      refine ⟨_, none, .ends item outer _ innermost ?_ (.refl _) rfl, rfl⟩
      rw [waiting, ItemFetcher.fetchingFor, absent]
    · rename_i tracker found
      have is : before.waiting item = tracker.mWaitingEnvelopes := by
        rw [waiting, ItemFetcher.fetchingFor, found]
      split
      · rename_i nobody
        have empty : before.waiting item = [] := by
          rw [is]
          exact List.getLast?_eq_none_iff.mp nobody
        refine ⟨_, none, .ends item outer _ innermost empty ?_ ?_, rfl⟩
        · cases item.kind with
          | quorumSet => exact ⟨_, _, rfl⟩
          | txSet => exact ⟨_, _, rfl⟩
        · funext other
          change (before.setFetcher item.kind _).waiting other = _
          rw [waiting_replace]
          split
          · rename_i same
            rw [same, is]
            rfl
          · rfl
      · rename_i envelope last
        refine ⟨_, some envelope, .takes item outer envelope _ innermost ?_ (setFetcher_same _ _) ?_ ?_,
          rfl⟩
        · rw [is]
          exact List.mem_of_getLast? last
        · intro other waits member
          rw [waiting_replace] at member
          split at member
          · rename_i same
            rw [same, is]
            exact List.mem_of_mem_dropLast member
          · exact member
        · intro other waits member different
          rw [waiting_replace]
          split
          · rename_i same
            rw [same, is, ← List.dropLast_append_getLast? envelope last, List.mem_append] at member
            rcases member with early | own
            · exact early
            · rcases different with unequal | elsewhere
              · exact absurd (List.mem_singleton.mp own) unequal
              · exact absurd same elsewhere
          · exact member

section

omit [DecidableEq NodeID]

theorem Sound.forget (sound : before.Sound sane)
    (envelopes : after.mEnvelopes = before.mEnvelopes) (released : after.released = before.released)
    (cached : ∀ other, after.cached other = before.cached other)
    (receiving : ∀ other ∈ after.receiving, other ∈ before.receiving)
    (fewer : ∀ other waits, waits ∈ after.waiting other → waits ∈ before.waiting other) :
    after.Sound sane where
  unseen := by
    rw [envelopes]
    exact sound.unseen
  decodable := by
    rw [envelopes]
    exact sound.decodable
  processed := by
    rw [envelopes, released]
    exact sound.processed
  released := by
    rw [envelopes, released]
    intro envelope member
    unfold PendingEnvelopes.isFullyFetched
    rw [funext cached]
    exact sound.released envelope member
  once := by
    rw [released]
    exact sound.once
  needed := fun other waits member => sound.needed other waits (fewer other waits member)
  arrived := by
    intro other member
    rw [cached]
    exact sound.arrived other (receiving other member)
  saneSets := by
    intro hash held
    rw [cached] at held
    exact sound.saneSets hash held

theorem Turn.sound {taken : Option (SCPEnvelope NodeID Hash)} (turn : Turn before after taken)
    (sound : before.Sound sane) : after.Sound sane := by
  cases turn with
  | idle => exact sound
  | ends item outer after innermost nobody same waiting =>
      have cached := same.cached
      obtain ⟨_, _, rfl⟩ := same
      refine sound.forget rfl rfl cached ?_ ?_
      · intro other member
        rw [innermost]
        exact List.mem_cons_of_mem item member
      · intro other waits member
        rw [waiting] at member
        exact member
  | takes item outer envelope after innermost waits same fewer others =>
      have cached := same.cached
      obtain ⟨_, _, rfl⟩ := same
      exact sound.forget rfl rfl cached (fun _ member => member) fewer

theorem Turn.envelopes {taken : Option (SCPEnvelope NodeID Hash)} (turn : Turn before after taken) :
    after.mEnvelopes = before.mEnvelopes := by
  cases turn with
  | idle => rfl
  | ends item outer after innermost nobody same waiting =>
      obtain ⟨_, _, rfl⟩ := same
      rfl
  | takes item outer envelope after innermost waits same fewer others =>
      obtain ⟨_, _, rfl⟩ := same
      rfl

theorem Turn.waitsForMissing {taken : Option (SCPEnvelope NodeID Hash)} (turn : Turn before after taken)
    (sound : before.Sound sane) (waits : before.WaitsForMissing envelope) :
    after.WaitsForMissing envelope := by
  cases turn with
  | idle => exact waits
  | ends item outer after innermost nobody same waiting =>
      have cached := same.cached
      obtain ⟨_, _, rfl⟩ := same
      unfold WaitsForMissing
      rw [waiting]
      exact fun fetching other member missing => waits fetching other member (cached other ▸ missing)
  | takes item outer taken after innermost _ same fewer others =>
      have cached := same.cached
      obtain ⟨_, _, rfl⟩ := same
      intro fetching other member missing
      rw [cached] at missing
      apply others other envelope (waits fetching other member missing)
      right
      intro come
      have held := sound.arrived item (innermost ▸ List.mem_cons_self)
      rw [← come, missing] at held
      cases held

theorem Turn.handedOn {taken : Option (SCPEnvelope NodeID Hash)} (turn : Turn before after taken)
    (different : taken ≠ some envelope) (handedOn : before.HandedOn envelope) :
    after.HandedOn envelope := by
  cases turn with
  | idle => exact handedOn
  | ends item outer after innermost nobody same waiting =>
      have cached := same.cached
      obtain ⟨_, _, rfl⟩ := same
      intro fetching full
      unfold PendingEnvelopes.isFullyFetched at full
      rw [funext cached] at full
      obtain ⟨other, member, waits⟩ := handedOn fetching full
      rw [waiting]
      refine ⟨other, ?_, waits⟩
      rw [innermost] at member
      rcases List.mem_cons.mp member with same | inOuter
      · rw [same, nobody] at waits
        cases waits
      · exact inOuter
  | takes item outer taken after innermost _ same fewer others =>
      have cached := same.cached
      obtain ⟨_, _, rfl⟩ := same
      intro fetching full
      unfold PendingEnvelopes.isFullyFetched at full
      rw [funext cached] at full
      obtain ⟨other, member, waits⟩ := handedOn fetching full
      refine ⟨other, member, others other envelope waits (.inl ?_)⟩
      intro same
      exact different (congrArg some same.symm)

end

end Arrive

end PendingEnvelopes

end ViiCore.Herder.Pending
