import Mathlib.Logic.Function.Basic
import ViiCore.Overlay.Tracker

/-!
Fetching of items that envelopes wait for (`overlay/ItemFetcher.cpp`), and whether fetching ever
stalls.

While an item is received its envelopes are popped one by one and handed to the herder, which may
call the fetcher again: the calls in progress are a stack, and what the herder does is arbitrary.
Clearing of old slots is posted and runs on its own.
-/

namespace ViiCore.Overlay

variable {Hash Envelope Peer : Type}

structure ItemFetcher (Hash Envelope Peer : Type) where
  mTrackers : Hash → Option (Tracker Hash Envelope Peer)

namespace ItemFetcher

section Source

variable [DecidableEq Hash] [DecidableEq Peer] (view : EnvelopeView Hash Envelope)
  (fetcher : ItemFetcher Hash Envelope Peer)

def put (itemHash : Hash) (tracker : Tracker Hash Envelope Peer) :
    ItemFetcher Hash Envelope Peer :=
  { mTrackers := Function.update fetcher.mTrackers itemHash (some tracker) }

def fetch (peers : Peers Hash Peer) (itemHash : Hash) (envelope : Envelope) :
    Option Peer × ItemFetcher Hash Envelope Peer :=
  match fetcher.mTrackers itemHash with
  | none =>
      let (asked, tracker) := ((Tracker.new itemHash).listen view envelope).tryNextPeer peers
      (asked, fetcher.put itemHash tracker)
  | some tracker => (none, fetcher.put itemHash (tracker.listen view envelope))

def stopFetch [DecidableEq Envelope] (itemHash : Hash) (envelope : Envelope) :
    ItemFetcher Hash Envelope Peer :=
  match fetcher.mTrackers itemHash with
  | none => fetcher
  | some tracker =>
      let tracker := tracker.discard envelope
      fetcher.put itemHash (if tracker.empty then tracker.cancel else tracker)

def getLastSeenSlotIndex (itemHash : Hash) : UInt64 :=
  match fetcher.mTrackers itemHash with
  | none => 0
  | some tracker => tracker.mLastSeenSlotIndex

def fetchingFor (itemHash : Hash) : List Envelope :=
  match fetcher.mTrackers itemHash with
  | none => []
  | some tracker => tracker.mWaitingEnvelopes.map Prod.snd

def stopFetchingBelowInternal (slotIndex : UInt64) : ItemFetcher Hash Envelope Peer :=
  { mTrackers := fun itemHash => do
      let tracker ← fetcher.mTrackers itemHash
      let (kept, tracker) := tracker.clearEnvelopesBelow view slotIndex
      if kept then some tracker else none }

def doesntHave (peers : Peers Hash Peer) (itemHash : Hash) (peer : Peer) :
    Option Peer × ItemFetcher Hash Envelope Peer :=
  match fetcher.mTrackers itemHash with
  | none => (none, fetcher)
  | some tracker =>
      let (asked, tracker) := tracker.doesntHave peers peer
      (asked, fetcher.put itemHash tracker)

def recvNext (itemHash : Hash) : Option (Envelope × ItemFetcher Hash Envelope Peer) := do
  let tracker ← fetcher.mTrackers itemHash
  let (envelope, tracker) ← tracker.pop
  return (envelope, fetcher.put itemHash tracker)

def recvEnd (itemHash : Hash) : Option (ItemFetcher Hash Envelope Peer) := do
  let tracker ← fetcher.mTrackers itemHash
  if tracker.empty then return fetcher.put itemHash tracker.resetLastSeenSlotIndex.cancel
  else none

def expire (peers : Peers Hash Peer) (itemHash : Hash) :
    Option (Option Peer × ItemFetcher Hash Envelope Peer) := do
  let tracker ← fetcher.mTrackers itemHash
  if tracker.mTimer.isSome then
    let (asked, tracker) := tracker.tryNextPeer peers
    return (asked, fetcher.put itemHash tracker)
  else none

end Source

end ItemFetcher

/-! ### Runs -/

/-- The fetcher in its program: the calls of `recv` in progress, the innermost first, and the slots
of posted clearings. -/
structure Fetching (Hash Envelope Peer : Type) where
  fetcher : ItemFetcher Hash Envelope Peer
  receiving : List Hash
  posted : List UInt64

namespace Fetching

def initial : Fetching Hash Envelope Peer :=
  { fetcher := { mTrackers := fun _ => none }
    receiving := []
    posted := [] }

inductive Event (Hash Envelope Peer : Type) where
  | fetch (peers : Peers Hash Peer) (itemHash : Hash) (envelope : Envelope)
  | stopFetch (itemHash : Hash) (envelope : Envelope)
  | doesntHave (peers : Peers Hash Peer) (itemHash : Hash) (peer : Peer)
  | stopFetchingBelow (slotIndex : UInt64)
  | runPosted
  | recv (itemHash : Hash)
  | recvNext
  | recvEnd
  | expire (peers : Peers Hash Peer) (itemHash : Hash)

variable [DecidableEq Hash] [DecidableEq Envelope] [DecidableEq Peer]
  (view : EnvelopeView Hash Envelope)

/-- There is no step where the event cannot happen. Timers and what is posted wait until the call in
progress is over. -/
def step (fetching : Fetching Hash Envelope Peer) :
    Event Hash Envelope Peer → Option (Fetching Hash Envelope Peer)
  | .fetch peers itemHash envelope =>
      some { fetching with fetcher := (fetching.fetcher.fetch view peers itemHash envelope).2 }
  | .stopFetch itemHash envelope =>
      some { fetching with fetcher := fetching.fetcher.stopFetch itemHash envelope }
  | .doesntHave peers itemHash peer =>
      some { fetching with fetcher := (fetching.fetcher.doesntHave peers itemHash peer).2 }
  | .stopFetchingBelow slotIndex =>
      some { fetching with posted := fetching.posted ++ [slotIndex] }
  | .runPosted =>
      match fetching.receiving, fetching.posted with
      | [], slotIndex :: posted =>
          some {
            fetching with
            fetcher := fetching.fetcher.stopFetchingBelowInternal view slotIndex
            posted }
      | _, _ => none
  | .recv itemHash =>
      if (fetching.fetcher.mTrackers itemHash).isSome then
        some { fetching with receiving := itemHash :: fetching.receiving }
      else some fetching
  | .recvNext => do
      let itemHash ← fetching.receiving.head?
      let (_, fetcher) ← fetching.fetcher.recvNext itemHash
      return { fetching with fetcher }
  | .recvEnd => do
      let itemHash ← fetching.receiving.head?
      let fetcher ← fetching.fetcher.recvEnd itemHash
      return { fetching with fetcher, receiving := fetching.receiving.tail }
  | .expire peers itemHash =>
      if fetching.receiving.isEmpty then do
        let (_, fetcher) ← fetching.fetcher.expire peers itemHash
        return { fetching with fetcher }
      else none

def AllStates (holds : Fetching Hash Envelope Peer → Prop) (fetching : Fetching Hash Envelope Peer) :
    List (Event Hash Envelope Peer) → Prop
  | [] => holds fetching
  | event :: later =>
      holds fetching ∧ ∀ next, step view fetching event = some next → AllStates holds next later

def AllSteps (meets : Fetching Hash Envelope Peer → Event Hash Envelope Peer → Prop)
    (fetching : Fetching Hash Envelope Peer) : List (Event Hash Envelope Peer) → Prop
  | [] => True
  | event :: later =>
      meets fetching event ∧ ∀ next, step view fetching event = some next → AllSteps meets next later

/-- Nothing waits for an item that is not asked for again. -/
def Unstalled (fetching : Fetching Hash Envelope Peer) : Prop :=
  ∀ itemHash tracker, fetching.fetcher.mTrackers itemHash = some tracker → tracker.Waiting →
    tracker.Armed

/-- The same while items are received: their envelopes are about to be handed over. -/
def Attended (fetching : Fetching Hash Envelope Peer) : Prop :=
  ∀ itemHash tracker, fetching.fetcher.mTrackers itemHash = some tracker → tracker.Waiting →
    tracker.Armed ∨ itemHash ∈ fetching.receiving

/-- A fetch that finds a tracker finds its timer armed, or the item is being received. -/
def Heeds (fetching : Fetching Hash Envelope Peer) : Event Hash Envelope Peer → Prop
  | .fetch _ itemHash _ =>
      ∀ tracker, fetching.fetcher.mTrackers itemHash = some tracker →
        tracker.Armed ∨ itemHash ∈ fetching.receiving
  | _ => True

/-! ### What a step keeps -/

section Steps

omit [DecidableEq Envelope] [DecidableEq Peer]

variable {view} {fetching : Fetching Hash Envelope Peer} {itemHash : Hash}
  {tracker : Tracker Hash Envelope Peer}

omit [DecidableEq Hash] in
theorem attended_initial : Attended (initial : Fetching Hash Envelope Peer) := by
  intro itemHash tracker impossible
  cases impossible

theorem put_mTrackers (fetcher : ItemFetcher Hash Envelope Peer) (itemHash : Hash)
    (tracker : Tracker Hash Envelope Peer) :
    (fetcher.put itemHash tracker).mTrackers itemHash = some tracker := by
  unfold ItemFetcher.put
  exact Function.update_self itemHash _ _

theorem attended_put (attended : Attended fetching)
    (one : tracker.Waiting → tracker.Armed ∨ itemHash ∈ fetching.receiving) :
    Attended { fetching with fetcher := fetching.fetcher.put itemHash tracker } := by
  intro other found there waiting
  dsimp only [ItemFetcher.put] at there
  by_cases same : other = itemHash
  · subst same
    rw [Function.update_self] at there
    cases there
    exact one waiting
  · rw [Function.update_of_ne same] at there
    exact attended other found there waiting

theorem attended_of_put
    (attended : Attended { fetching with fetcher := fetching.fetcher.put itemHash tracker })
    (waiting : tracker.Waiting) : tracker.Armed ∨ itemHash ∈ fetching.receiving :=
  attended itemHash tracker (put_mTrackers fetching.fetcher itemHash tracker) waiting

theorem attended_fetch [DecidableEq Peer] (attended : Attended fetching) (peers : Peers Hash Peer)
    (envelope : Envelope) :
    Attended { fetching with fetcher := (fetching.fetcher.fetch view peers itemHash envelope).2 } ↔
      ∀ tracker, fetching.fetcher.mTrackers itemHash = some tracker →
        tracker.Armed ∨ itemHash ∈ fetching.receiving := by
  unfold ItemFetcher.fetch
  cases found : fetching.fetcher.mTrackers itemHash with
  | none =>
      apply iff_of_true
      · exact attended_put attended fun _ => Or.inl (Tracker.tryNextPeer_armed _ peers)
      · intro tracker impossible
        cases impossible
  | some tracker =>
      constructor
      · intro after other same
        cases same
        exact @attended_of_put _ _ _ _ fetching itemHash (tracker.listen view envelope) after
          (Tracker.listen_waiting view envelope)
      · intro heeds
        exact attended_put attended fun _ => heeds tracker rfl

theorem attended_stopFetch [DecidableEq Envelope] (attended : Attended fetching)
    (envelope : Envelope) :
    Attended { fetching with fetcher := fetching.fetcher.stopFetch itemHash envelope } := by
  unfold ItemFetcher.stopFetch
  cases found : fetching.fetcher.mTrackers itemHash with
  | none => exact attended
  | some tracker =>
      apply attended_put attended
      split
      · rename_i none
        exact fun waiting => absurd waiting (Tracker.empty_iff.mp none)
      · intro waiting
        exact attended itemHash tracker found (Tracker.discard_waiting waiting)

theorem attended_doesntHave [DecidableEq Peer] (attended : Attended fetching)
    (peers : Peers Hash Peer) (peer : Peer) :
    Attended { fetching with fetcher := (fetching.fetcher.doesntHave peers itemHash peer).2 } := by
  unfold ItemFetcher.doesntHave
  cases found : fetching.fetcher.mTrackers itemHash with
  | none => exact attended
  | some tracker =>
      apply attended_put attended
      intro waiting
      exact (attended itemHash tracker found (Tracker.doesntHave_waiting.mp waiting)).imp_left
        Tracker.doesntHave_armed

omit [DecidableEq Hash] in
theorem attended_clear (attended : Attended fetching) (slotIndex : UInt64)
    (posted : List UInt64) :
    Attended {
      fetching with
      fetcher := fetching.fetcher.stopFetchingBelowInternal view slotIndex
      posted } := by
  intro itemHash tracker there waiting
  obtain ⟨before, found, kept⟩ := Option.bind_eq_some_iff.mp there
  dsimp only at kept
  split at kept
  · rename_i stays
    cases kept
    obtain ⟨some, armed⟩ := Tracker.clearEnvelopesBelow_kept stays
    exact (attended itemHash before found some).imp_left armed.mpr
  · cases kept

theorem attended_recvNext (attended : Attended fetching) {envelope : Envelope}
    {fetcher : ItemFetcher Hash Envelope Peer}
    (popped : fetching.fetcher.recvNext itemHash = some (envelope, fetcher)) :
    Attended { fetching with fetcher } := by
  obtain ⟨tracker, found, popped⟩ := Option.bind_eq_some_iff.mp popped
  obtain ⟨⟨_, rest⟩, back, popped⟩ := Option.bind_eq_some_iff.mp popped
  cases popped
  obtain ⟨last, isLast, same⟩ := Option.map_eq_some_iff.mp back
  cases same
  apply attended_put attended
  intro _
  apply attended itemHash tracker found
  intro none
  rw [none] at isLast
  cases isLast

theorem attended_recvEnd (attended : Attended fetching) {others : List Hash}
    (innermost : fetching.receiving = itemHash :: others)
    {fetcher : ItemFetcher Hash Envelope Peer}
    (ended : fetching.fetcher.recvEnd itemHash = some fetcher) :
    Attended { fetching with fetcher, receiving := others } := by
  obtain ⟨tracker, found, ended⟩ := Option.bind_eq_some_iff.mp ended
  split at ended
  · rename_i none
    cases ended
    intro other after there waiting
    dsimp only [ItemFetcher.put] at there
    by_cases same : other = itemHash
    · subst same
      rw [Function.update_self] at there
      cases there
      exact absurd waiting (Tracker.empty_iff.mp none)
    · rw [Function.update_of_ne same] at there
      rcases attended other after there waiting with armed | receiving
      · exact Or.inl armed
      · rw [innermost] at receiving
        exact Or.inr ((List.mem_cons.mp receiving).resolve_left same)
  · cases ended

theorem attended_expire [DecidableEq Peer] (attended : Attended fetching)
    {peers : Peers Hash Peer} {asked : Option Peer} {fetcher : ItemFetcher Hash Envelope Peer}
    (expired : fetching.fetcher.expire peers itemHash = some (asked, fetcher)) :
    Attended { fetching with fetcher } := by
  obtain ⟨tracker, found, expired⟩ := Option.bind_eq_some_iff.mp expired
  split at expired
  · cases expired
    exact attended_put attended fun _ => Or.inl (tracker.tryNextPeer_armed peers)
  · cases expired

theorem step_attended [DecidableEq Envelope] [DecidableEq Peer] (attended : Attended fetching)
    {event : Event Hash Envelope Peer} {next : Fetching Hash Envelope Peer}
    (stepped : step view fetching event = some next) :
    Attended next ↔ Heeds fetching event := by
  cases event with
  | fetch peers itemHash envelope =>
      cases stepped
      exact attended_fetch attended peers envelope
  | stopFetch itemHash envelope =>
      cases stepped
      exact iff_of_true (attended_stopFetch attended envelope) trivial
  | doesntHave peers itemHash peer =>
      cases stepped
      exact iff_of_true (attended_doesntHave attended peers peer) trivial
  | stopFetchingBelow slotIndex =>
      cases stepped
      exact iff_of_true attended trivial
  | runPosted =>
      dsimp only [step] at stepped
      split at stepped
      · rename_i idle _
        cases stepped
        exact iff_of_true (attended_clear attended _ _) trivial
      · cases stepped
  | recv itemHash =>
      dsimp only [step] at stepped
      split at stepped
      · cases stepped
        refine iff_of_true ?_ trivial
        intro other tracker found waiting
        exact (attended other tracker found waiting).imp_right (List.mem_cons_of_mem itemHash)
      · cases stepped
        exact iff_of_true attended trivial
  | recvNext =>
      obtain ⟨itemHash, _, stepped⟩ := Option.bind_eq_some_iff.mp stepped
      obtain ⟨⟨envelope, fetcher⟩, popped, stepped⟩ := Option.bind_eq_some_iff.mp stepped
      cases stepped
      exact iff_of_true (attended_recvNext attended popped) trivial
  | recvEnd =>
      obtain ⟨itemHash, innermost, stepped⟩ := Option.bind_eq_some_iff.mp stepped
      obtain ⟨fetcher, ended, stepped⟩ := Option.bind_eq_some_iff.mp stepped
      cases stepped
      obtain ⟨others, split⟩ := List.head?_eq_some_iff.mp innermost
      refine iff_of_true ?_ trivial
      rw [split]
      exact attended_recvEnd attended split ended
  | expire peers itemHash =>
      dsimp only [step] at stepped
      split at stepped
      · obtain ⟨⟨asked, fetcher⟩, expired, stepped⟩ := Option.bind_eq_some_iff.mp stepped
        cases stepped
        exact iff_of_true (attended_expire attended expired) trivial
      · cases stepped

end Steps

/-! ### Whole runs -/

section Runs

variable {view}

theorem AllStates.start {holds : Fetching Hash Envelope Peer → Prop}
    {fetching : Fetching Hash Envelope Peer} {events : List (Event Hash Envelope Peer)}
    (all : AllStates view holds fetching events) : holds fetching := by
  cases events with
  | nil => exact all
  | cons event later => exact all.1

theorem heeds_of_stuck {fetching : Fetching Hash Envelope Peer} {event : Event Hash Envelope Peer}
    (stuck : step view fetching event = none) : Heeds fetching event := by
  cases event with
  | fetch peers itemHash envelope => cases stuck
  | _ => trivial

theorem allStates_iff {fetching : Fetching Hash Envelope Peer} (attended : Attended fetching)
    (events : List (Event Hash Envelope Peer)) :
    AllStates view Attended fetching events ↔ AllSteps view Heeds fetching events := by
  induction events generalizing fetching with
  | nil => exact iff_of_true attended trivial
  | cons event later ih =>
      constructor
      · intro ⟨_, after⟩
        cases stepped : step view fetching event with
        | none =>
            refine ⟨heeds_of_stuck stepped, ?_⟩
            intro next possible
            rw [stepped] at possible
            cases possible
        | some next =>
            have all := after next stepped
            refine ⟨(step_attended attended stepped).mp all.start, ?_⟩
            intro other same
            rw [stepped] at same
            cases same
            exact (ih all.start).mp all
      · intro ⟨heeds, after⟩
        refine ⟨attended, ?_⟩
        intro next stepped
        have kept := (step_attended attended stepped).mpr heeds
        exact (ih kept).mpr (after next stepped)

theorem AllStates.mono {holds other : Fetching Hash Envelope Peer → Prop}
    (implies : ∀ fetching, holds fetching → other fetching)
    {fetching : Fetching Hash Envelope Peer} {events : List (Event Hash Envelope Peer)}
    (all : AllStates view holds fetching events) : AllStates view other fetching events := by
  induction events generalizing fetching with
  | nil => exact implies fetching all
  | cons event later ih =>
      exact ⟨implies fetching all.1, fun next stepped => ih (all.2 next stepped)⟩

omit [DecidableEq Hash] [DecidableEq Envelope] [DecidableEq Peer] in
theorem Attended.unstalled {fetching : Fetching Hash Envelope Peer} (attended : Attended fetching)
    (idle : fetching.receiving = []) : Unstalled fetching := by
  intro itemHash tracker found waiting
  rcases attended itemHash tracker found waiting with armed | receiving
  · exact armed
  · rw [idle] at receiving
    cases receiving

/-- In a run whose fetches all heed the timers nothing stalls, and only in such a run is every item
that is waited for asked for again or received at every moment. -/
theorem fetching_never_stalls (view : EnvelopeView Hash Envelope)
    (events : List (Event Hash Envelope Peer)) :
    (AllSteps view Heeds initial events →
      AllStates view (fun fetching => fetching.receiving = [] → Unstalled fetching) initial events) ∧
    (AllStates view Attended initial events ↔ AllSteps view Heeds initial events) := by
  have exactly : AllStates view Attended initial events ↔ AllSteps view Heeds initial events :=
    allStates_iff attended_initial events
  refine ⟨?_, exactly⟩
  intro heeds
  exact (exactly.mpr heeds).mono fun fetching attended => attended.unstalled

def numberedView : EnvelopeView Nat Nat where
  slotIndex envelope := envelope.toUInt64
  messageHash envelope := envelope

def onePeer : Peers Nat Nat where
  getPeersKnows _ := []
  getRandomAuthenticatedPeers := [1]
  isAuthenticated _ := true

def discardedRun : List (Event Nat Nat Nat) :=
  [.fetch onePeer 7 1, .stopFetch 7 1, .fetch onePeer 7 2]

def receivedRun : List (Event Nat Nat Nat) :=
  [.fetch onePeer 7 1, .recv 7, .recvNext, .recvEnd, .fetch onePeer 7 2]

def trackerAfter (events : List (Event Nat Nat Nat)) (itemHash : Nat) :
    Option (List (Nat × Nat) × Option Nat) := do
  let fetching ← events.foldlM (step numberedView) initial
  let tracker ← fetching.fetcher.mTrackers itemHash
  return (tracker.mWaitingEnvelopes, tracker.mTimer)

theorem fetching_stalls :
    trackerAfter discardedRun 7 = some ([(2, 2)], none) ∧
    trackerAfter receivedRun 7 = some ([(2, 2)], none) ∧
    ¬ AllStates numberedView (fun fetching => fetching.receiving = [] → Unstalled fetching) initial
      discardedRun ∧
    ¬ AllStates numberedView (fun fetching => fetching.receiving = [] → Unstalled fetching) initial
      receivedRun := by
  refine ⟨rfl, rfl, ?_, ?_⟩
  · intro all
    have last := ((all.2 _ rfl).2 _ rfl).2 _ rfl
    have armed := last rfl 7 _ rfl (List.cons_ne_nil _ [])
    cases armed
  · intro all
    have last := ((((all.2 _ rfl).2 _ rfl).2 _ rfl).2 _ rfl).2 _ rfl
    have armed := last rfl 7 _ rfl (List.cons_ne_nil _ [])
    cases armed

end Runs

end Fetching

end ViiCore.Overlay
