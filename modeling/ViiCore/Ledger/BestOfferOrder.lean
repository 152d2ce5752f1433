import ViiCore.Ledger.BestOffers
import ViiCore.Ledger.LedgerTxnRecords
import ViiCore.Library.Least

/-!
The best offer of a pair is the least, by price and id, of the offers of the pair that are seen
through all open transactions and not left out.

What the cache of the root holds for a pair is always the beginning of the sorted table of the
pair, and all of it where it says so.
-/

namespace ViiCore.LedgerTxn

open ViiCore.FiniteMap ViiCore.Sorting ViiCore.Least

variable {κ ν Asset Price : Type} [DecidableEq κ] [DecidableEq Asset] [LinearOrder Price]
variable {fields : OfferFields κ ν Asset Price} {buying selling : Asset}

variable (fields buying selling) in
/-- An offer of the pair that is seen and not left out. -/
structure Candidate (view : View κ ν) (exclude : Finset κ) (entry : LedgerEntry κ ν) : Prop where
  seen : ∃ key, fields.isOffer key ∧ key ∉ exclude ∧ view key = some entry
  ofPair : isOfPair fields buying selling entry

omit [DecidableEq κ] in
theorem isBetterOffer_eq {lhs rhs : LedgerEntry κ ν} (left : isOfPair fields buying selling lhs)
    (right : isOfPair fields buying selling rhs) :
    isBetterOffer fields lhs rhs = .ok (offerOrder fields lhs < offerOrder fields rhs) := by
  simp only [isOfPair, Bool.and_eq_true, decide_eq_true_eq] at left right
  simp only [isBetterOffer, left, right, assertThat, decide_true, if_true, offerOrder,
    Prod.Lex.toLex_lt_toLex]
  rcases lt_trichotomy (fields.price lhs.data) (fields.price rhs.data) with below | same | above
  · simp [below, pure, Except.pure, bind, Except.bind]
  · simp [same, pure, Except.pure, bind, Except.bind]
  · simp [above.ne', above.not_gt, pure, Except.pure, bind, Except.bind]

/-! ### The offers that a transaction records -/

variable (fields buying selling) in
structure OwnCandidate (records : List (Sigma fun _ : κ => Option (LedgerEntry κ ν)))
    (exclude : Finset κ) (entry : LedgerEntry κ ν) : Prop where
  recorded : ∃ key, fields.isOffer key ∧ key ∉ exclude ∧ ⟨key, some entry⟩ ∈ records
  ofPair : isOfPair fields buying selling entry

variable (fields) in
def excludeOffers (exclude : Finset κ)
    (records : List (Sigma fun _ : κ => Option (LedgerEntry κ ν))) : Finset κ :=
  exclude ∪ (records.keys.filter fun key => fields.isOffer key).toFinset

omit [DecidableEq Asset] [LinearOrder Price] in
theorem mem_excludeOffers {exclude : Finset κ}
    {records : List (Sigma fun _ : κ => Option (LedgerEntry κ ν))} {key : κ} :
    key ∈ excludeOffers fields exclude records ↔
      key ∈ exclude ∨ key ∈ records.keys ∧ fields.isOffer key := by
  simp [excludeOffers]

omit [DecidableEq Asset] [LinearOrder Price] in
theorem excludeOffers_cons (exclude : Finset κ) (kv : Sigma fun _ : κ => Option (LedgerEntry κ ν))
    (records : List (Sigma fun _ : κ => Option (LedgerEntry κ ν))) :
    excludeOffers fields (excludeOffers fields exclude [kv]) records =
      excludeOffers fields exclude (kv :: records) := by
  ext key
  simp only [mem_excludeOffers, List.keys_cons, List.keys_nil, List.mem_cons, List.not_mem_nil]
  tauto

variable (fields buying selling) in
def ownOffer (exclude : Finset κ) (kv : Sigma fun _ : κ => Option (LedgerEntry κ ν)) :
    Option (LedgerEntry κ ν) :=
  if fields.isOffer kv.1 ∧ kv.1 ∉ exclude then kv.2.filter (isOfPair fields buying selling)
  else none

omit [LinearOrder Price] in
theorem ownCandidate_single {exclude : Finset κ}
    {kv : Sigma fun _ : κ => Option (LedgerEntry κ ν)} {entry : LedgerEntry κ ν} :
    OwnCandidate fields buying selling [kv] exclude entry ↔
      ownOffer fields buying selling exclude kv = some entry := by
  unfold ownOffer
  constructor
  · rintro ⟨⟨key, offer, included, member⟩, ofPair⟩
    rw [← List.mem_singleton.mp member, if_pos ⟨offer, included⟩]
    exact Option.filter_eq_some_iff.mpr ⟨rfl, ofPair⟩
  · intro found
    split at found
    · rename_i allowed
      obtain ⟨record, ofPair⟩ := Option.filter_eq_some_iff.mp found
      obtain ⟨key, value⟩ := kv
      cases record
      exact ⟨⟨key, allowed.1, allowed.2, List.mem_singleton.mpr rfl⟩, ofPair⟩
    · cases found

theorem ownOffer_least (exclude : Finset κ) (kv : Sigma fun _ : κ => Option (LedgerEntry κ ν)) :
    LeastOf (offerOrder fields) (OwnCandidate fields buying selling [kv] exclude)
      (ownOffer fields buying selling exclude kv) := by
  cases found : ownOffer fields buying selling exclude kv with
  | none =>
      intro entry candidate
      rw [ownCandidate_single, found] at candidate
      cases candidate
  | some own =>
      apply (leastOf_single own).congr
      intro entry
      rw [ownCandidate_single, found, Option.some.injEq, eq_comm]

theorem considerEntry_eq {exclude : Finset κ} {bestOffer : Option (LedgerEntry κ ν)}
    (ofPair : ∀ best, bestOffer = some best → isOfPair fields buying selling best)
    (kv : Sigma fun _ : κ => Option (LedgerEntry κ ν)) :
    considerEntry fields buying selling (exclude, bestOffer) kv =
      .ok (excludeOffers fields exclude [kv],
        lower (offerOrder fields) (ownOffer fields buying selling exclude kv) bestOffer) := by
  obtain ⟨key, record⟩ := kv
  by_cases offer : fields.isOffer key
  swap
  · simp [considerEntry, ownOffer, offer, excludeOffers, lower, pure, Except.pure]
  by_cases excluded : key ∈ exclude
  · simp [considerEntry, ownOffer, offer, excluded, excludeOffers, lower, pure, Except.pure]
  have grown : excludeOffers fields exclude [⟨key, record⟩] = insert key exclude := by
    ext other
    simp only [mem_excludeOffers, List.keys_cons, List.keys_nil, List.mem_cons, List.not_mem_nil,
      Finset.mem_insert]
    grind
  rw [grown]
  cases record with
  | none => simp [considerEntry, ownOffer, offer, excluded, lower, pure, Except.pure]
  | some entry =>
      by_cases own : isOfPair fields buying selling entry
      swap
      · simp [considerEntry, ownOffer, offer, excluded, own, Option.filter, lower, pure, Except.pure]
      have kept : ownOffer fields buying selling exclude ⟨key, some entry⟩ = some entry := by
        simp [ownOffer, offer, excluded, own, Option.filter]
      rw [kept]
      cases bestOffer with
      | none => simp [considerEntry, offer, excluded, own, lower, pure, Except.pure]
      | some best =>
          have compared := isBetterOffer_eq own (ofPair best rfl)
          by_cases better : offerOrder fields entry < offerOrder fields best
          · simp [considerEntry, offer, excluded, own, lower, compared, better, pure,
              Except.pure, bind, Except.bind]
          · simp [considerEntry, offer, excluded, own, lower, compared, better, pure,
              Except.pure, bind, Except.bind]

omit [LinearOrder Price] in
theorem ownCandidate_cons {exclude : Finset κ} {kv : Sigma fun _ : κ => Option (LedgerEntry κ ν)}
    {records : List (Sigma fun _ : κ => Option (LedgerEntry κ ν))} (fresh : kv.1 ∉ records.keys)
    {entry : LedgerEntry κ ν} :
    OwnCandidate fields buying selling (kv :: records) exclude entry ↔
      OwnCandidate fields buying selling records (excludeOffers fields exclude [kv]) entry ∨
        OwnCandidate fields buying selling [kv] exclude entry := by
  constructor
  · rintro ⟨⟨key, offer, included, member⟩, ofPair⟩
    rcases List.mem_cons.mp member with same | later
    · exact .inr ⟨⟨key, offer, included, List.mem_singleton.mpr same⟩, ofPair⟩
    · have other : key ≠ kv.1 := by
        intro same
        exact fresh (same ▸ List.mem_keys_of_mem later)
      refine .inl ⟨⟨key, offer, ?_, later⟩, ofPair⟩
      rw [mem_excludeOffers]
      rintro (early | ⟨atHead, _⟩)
      · exact included early
      · exact other (List.mem_singleton.mp atHead)
  · rintro (⟨⟨key, offer, included, member⟩, ofPair⟩ | ⟨⟨key, offer, included, member⟩, ofPair⟩)
    · rw [mem_excludeOffers, not_or] at included
      exact ⟨⟨key, offer, included.1, List.mem_cons_of_mem kv member⟩, ofPair⟩
    · exact ⟨⟨key, offer, included, List.mem_cons.mpr (.inl (List.mem_singleton.mp member))⟩, ofPair⟩

theorem considerEntries_least {records : List (Sigma fun _ : κ => Option (LedgerEntry κ ν))}
    (distinct : records.NodupKeys) {among : LedgerEntry κ ν → Prop} {exclude : Finset κ}
    {bestOffer : Option (LedgerEntry κ ν)} (least : LeastOf (offerOrder fields) among bestOffer)
    (ofPair : ∀ entry, among entry → isOfPair fields buying selling entry) :
    ∃ best, records.foldlM (considerEntry fields buying selling) (exclude, bestOffer) =
        .ok (excludeOffers fields exclude records, best) ∧
      LeastOf (offerOrder fields)
        (fun entry => OwnCandidate fields buying selling records exclude entry ∨ among entry)
        best := by
  induction records generalizing among exclude bestOffer with
  | nil =>
      refine ⟨bestOffer, ?_, least.congr ?_⟩
      · simp [excludeOffers, pure, Except.pure]
      · intro entry
        constructor
        · rintro (⟨⟨_, _, _, member⟩, _⟩ | old)
          · cases member
          · exact old
        · exact .inr
  | cons kv records ih =>
      obtain ⟨fresh, distinctRest⟩ := List.nodupKeys_cons.mp distinct
      have bestOfPair : ∀ best, bestOffer = some best → isOfPair fields buying selling best := by
        intro best is
        rw [is] at least
        exact ofPair best least.1
      have leastOwn : LeastOf (offerOrder fields) (OwnCandidate fields buying selling [kv] exclude)
          (ownOffer fields buying selling exclude kv) := ownOffer_least exclude kv
      obtain ⟨best, ran, leastAll⟩ := ih distinctRest (leastOwn.lower least) (by
        rintro entry (own | old)
        · exact own.ofPair
        · exact ofPair entry old)
      refine ⟨best, ?_, leastAll.congr ?_⟩
      · rw [List.foldlM_cons, considerEntry_eq bestOfPair]
        change List.foldlM _ _ records = _
        rw [ran, excludeOffers_cons]
      · intro entry
        rw [ownCandidate_cons fresh, or_assoc]

variable (fields buying selling) in
theorem ownEntries_least (txn : Impl κ ν) (exclude : Finset κ) :
    ∃ best, txn.mEntry.entries.foldlM (considerEntry fields buying selling) (exclude, none) =
        .ok (excludeOffers fields exclude txn.mEntry.entries, best) ∧
      LeastOf (offerOrder fields)
        (OwnCandidate fields buying selling txn.mEntry.entries exclude) best := by
  obtain ⟨best, looked, least⟩ :=
    considerEntries_least txn.mEntry.nodupKeys (leastOf_none : LeastOf (offerOrder fields) _ none)
      (fun _ impossible => impossible.elim)
  refine ⟨best, looked, least.congr ?_⟩
  intro entry
  rw [or_false]

/-! ### The root -/

section Root

variable {database : Sorter (LedgerEntry κ ν)} {root : Root κ ν}

variable (fields database root) in
structure Loaded (pair : Asset × Asset) (cached : BestOffersCacheEntry κ ν) : Prop where
  beginning : cached.bestOffers <+: offersOfPair fields database root pair.1 pair.2
  whole : cached.allLoaded = true →
    cached.bestOffers = offersOfPair fields database root pair.1 pair.2

theorem mem_offersOfPair {entry : LedgerEntry κ ν} :
    entry ∈ offersOfPair fields database root buying selling ↔
      fields.isOffer entry.key ∧ isOfPair fields buying selling entry ∧
        root.getNewestVersion entry.key = some entry := by
  have row : (∃ row ∈ root.rows.entries, (⟨row.2.lastModified, row.1, row.2.data⟩ :
      LedgerEntry κ ν) = entry) ↔ root.getNewestVersion entry.key = some entry := by
    unfold Root.getNewestVersion
    rw [Option.map_eq_some_iff]
    constructor
    · rintro ⟨⟨key, row⟩, member, rfl⟩
      exact ⟨row, AList.mem_lookup_iff.mpr member, rfl⟩
    · rintro ⟨row, found, is⟩
      exact ⟨⟨entry.key, row⟩, AList.mem_lookup_iff.mp found, is⟩
  unfold offersOfPair
  rw [(database.perm _ _).mem_iff, List.mem_filter, List.mem_map, row, Bool.and_eq_true]
  tauto

theorem candidate_root {exclude : Finset κ} {entry : LedgerEntry κ ν} :
    Candidate fields buying selling root.getNewestVersion exclude entry ↔
      entry ∈ offersOfPair fields database root buying selling ∧ decide (entry.key ∉ exclude) := by
  rw [mem_offersOfPair, decide_eq_true_eq]
  constructor
  · rintro ⟨⟨key, offer, included, seen⟩, ofPair⟩
    have same : entry.key = key := by
      obtain ⟨row, _, is⟩ := Option.map_eq_some_iff.mp seen
      rw [← is]
    rw [same]
    exact ⟨⟨offer, ofPair, seen⟩, included⟩
  · rintro ⟨⟨offer, ofPair, seen⟩, included⟩
    exact ⟨⟨entry.key, offer, included, seen⟩, ofPair⟩

omit [DecidableEq κ] in
theorem loadBatch_bestOffers {cached : BestOffersCacheEntry κ ν}
    (loaded : Loaded fields database root (buying, selling) cached) :
    (loadBatch fields database root buying selling cached).2.bestOffers =
      (offersOfPair fields database root buying selling).take
        (cached.bestOffers.length + BATCH_SIZE) := by
  have start : cached.bestOffers = (offersOfPair fields database root buying selling).take
      cached.bestOffers.length := List.prefix_iff_eq_take.mp loaded.beginning
  rw [List.take_add, ← start]
  rfl

omit [DecidableEq κ] in
theorem loadBatch_loaded {cached : BestOffersCacheEntry κ ν}
    (more : cached.allLoaded = false)
    (loaded : Loaded fields database root (buying, selling) cached) :
    Loaded fields database root (buying, selling)
      (loadBatch fields database root buying selling cached).2 := by
  constructor
  · rw [loadBatch_bestOffers loaded]
    exact List.take_prefix _ _
  · intro last
    rw [loadBatch_bestOffers loaded]
    apply List.take_of_length_le
    have short : (loadBestOffers fields database root buying selling BATCH_SIZE
        cached.bestOffers.length).length < BATCH_SIZE := by
      simpa [loadBatch, more] using last
    rw [loadBestOffers, List.length_take, List.length_drop] at short
    change (offersOfPair fields database root buying selling).length ≤ _
    omega

omit [DecidableEq Asset] [LinearOrder Price] in
theorem findIncludedOffer_beginning {early all : List (LedgerEntry κ ν)} {exclude : Finset κ}
    {res : LedgerEntry κ ν} (beginning : early <+: all)
    (found : findIncludedOffer early exclude = some res) :
    findIncludedOffer all exclude = some res := by
  obtain ⟨late, rfl⟩ := beginning
  unfold findIncludedOffer at found ⊢
  rw [List.find?_append, found]
  rfl

theorem loadUntilIncluded_eq {exclude : Finset κ} (cached : BestOffersCacheEntry κ ν)
    (loaded : Loaded fields database root (buying, selling) cached)
    (missing : findIncludedOffer cached.bestOffers exclude = none) :
    (loadUntilIncluded fields database root buying selling exclude cached).1 =
        findIncludedOffer (offersOfPair fields database root buying selling) exclude ∧
      Loaded fields database root (buying, selling)
        (loadUntilIncluded fields database root buying selling exclude cached).2 := by
  fun_induction loadUntilIncluded fields database root buying selling exclude cached with
  | case1 cached more batch res found =>
      have next := loadBatch_loaded more loaded
      have inBatch : findIncludedOffer batch.2.bestOffers exclude = some res := by
        change findIncludedOffer (cached.bestOffers ++ batch.1) exclude = _
        unfold findIncludedOffer at missing found ⊢
        rw [List.find?_append, missing, found]
        rfl
      exact ⟨(findIncludedOffer_beginning next.beginning inBatch).symm, next⟩
  | case2 cached more batch found ih =>
      apply ih (loadBatch_loaded more loaded)
      change findIncludedOffer (cached.bestOffers ++ batch.1) exclude = _
      unfold findIncludedOffer at missing found ⊢
      rw [List.find?_append, missing, found]
      rfl
  | case3 cached all =>
      refine ⟨?_, loaded⟩
      rw [← loaded.whole (by simpa using all)]
      exact missing.symm

omit [DecidableEq κ] in
theorem getFromBestOffersCache_loaded {cache : BestOffersCache κ ν Asset}
    (holds : cache.Holds (Loaded fields database root)) (draws : Draws) {default : BestOffersCacheEntry κ ν}
    (fresh : Loaded fields database root (buying, selling) default) :
    Loaded fields database root (buying, selling)
        (getFromBestOffersCache cache draws buying selling default).1 ∧
      (getFromBestOffersCache cache draws buying selling default).2.Holds
        (Loaded fields database root) := by
  unfold getFromBestOffersCache
  simp only
  have added : (if cache.exists_ (buying, selling) then cache
      else cache.put draws (buying, selling) default).Holds (Loaded fields database root) := by
    split
    · exact holds
    · exact RandomEvictionCache.put_holds holds draws fresh
  cases got : (if cache.exists_ (buying, selling) then cache
      else cache.put draws (buying, selling) default).get (buying, selling) with
  | none => exact ⟨fresh, added⟩
  | some found => exact RandomEvictionCache.get_holds added got

theorem Root.getBestOffer_eq {cache : BestOffersCache κ ν Asset}
    (holds : cache.Holds (Loaded fields database root)) (draws : Draws) (buying selling : Asset)
    (exclude : Finset κ) :
    (root.getBestOffer fields database cache draws buying selling exclude).1 =
        findIncludedOffer (offersOfPair fields database root buying selling) exclude ∧
      (root.getBestOffer fields database cache draws buying selling exclude).2.Holds
        (Loaded fields database root) := by
  have nothing : Loaded fields database root (buying, selling)
      { bestOffers := [], allLoaded := false } :=
    ⟨List.nil_prefix, fun impossible => by cases impossible⟩
  obtain ⟨loaded, kept⟩ := getFromBestOffersCache_loaded holds draws nothing
  unfold Root.getBestOffer
  simp only
  split
  · rename_i res found
    exact ⟨(findIncludedOffer_beginning loaded.beginning found).symm, kept⟩
  · rename_i missing
    obtain ⟨is, after⟩ := loadUntilIncluded_eq _ loaded missing
    exact ⟨is, RandomEvictionCache.assign_holds kept after⟩

theorem Root.getBestOffer_least {cache : BestOffersCache κ ν Asset}
    (holds : cache.Holds (Loaded fields database root)) (draws : Draws) (exclude : Finset κ) :
    LeastOf (offerOrder fields) (Candidate fields buying selling root.getNewestVersion exclude)
      (root.getBestOffer fields database cache draws buying selling exclude).1 := by
  rw [(root.getBestOffer_eq holds draws buying selling exclude).1]
  apply (leastOf_find (database.sorted_byKey (offerOrder fields) _) _).congr
  intro entry
  exact candidate_root

end Root

/-! ### Nested transactions -/

omit [LinearOrder Price] in
theorem candidate_cons {mParent : View κ ν} {txn : Impl κ ν} {exclude : Finset κ}
    {entry : LedgerEntry κ ν} :
    Candidate fields buying selling (txn.getNewestVersion mParent) exclude entry ↔
      OwnCandidate fields buying selling txn.mEntry.entries exclude entry ∨
        Candidate fields buying selling mParent (excludeOffers fields exclude txn.mEntry.entries)
          entry := by
  constructor
  · rintro ⟨⟨key, offer, included, seen⟩, ofPair⟩
    unfold Impl.getNewestVersion at seen
    cases own : txn.mEntry.lookup key with
    | some record =>
        rw [own] at seen
        cases seen
        exact .inl ⟨⟨key, offer, included, AList.mem_lookup_iff.mp own⟩, ofPair⟩
    | none =>
        rw [own] at seen
        refine .inr ⟨⟨key, offer, ?_, seen⟩, ofPair⟩
        rw [mem_excludeOffers]
        rintro (early | ⟨recorded, _⟩)
        · exact included early
        · exact AList.lookup_eq_none.mp own recorded
  · rintro (⟨⟨key, offer, included, recorded⟩, ofPair⟩ | ⟨⟨key, offer, included, seen⟩, ofPair⟩)
    · refine ⟨⟨key, offer, included, ?_⟩, ofPair⟩
      rw [Impl.getNewestVersion, AList.mem_lookup_iff.mpr recorded]
    · rw [mem_excludeOffers, not_or] at included
      refine ⟨⟨key, offer, included.1, ?_⟩, ofPair⟩
      have absent : txn.mEntry.lookup key = none := by
        apply AList.lookup_eq_none.mpr
        intro recorded
        exact included.2 ⟨recorded, offer⟩
      rw [Impl.getNewestVersion, absent]
      exact seen

theorem getBestOffer_least {database : Sorter (LedgerEntry κ ν)} {root : Root κ ν}
    {cache : BestOffersCache κ ν Asset} (holds : cache.Holds (Loaded fields database root))
    (draws : Draws) (levels : List (Impl κ ν)) (exclude : Finset κ) :
    ∃ best grown after,
      getBestOffer fields database root cache draws buying selling levels exclude =
        .ok (best, grown, after) ∧
      LeastOf (offerOrder fields) (Candidate fields buying selling (newest root levels) exclude)
        best ∧
      after.Holds (Loaded fields database root) := by
  induction levels generalizing exclude with
  | nil =>
      exact ⟨_, exclude, _, rfl, Root.getBestOffer_least holds draws exclude,
        (root.getBestOffer_eq holds draws buying selling exclude).2⟩
  | cons txn outer ih =>
      obtain ⟨own, looked, leastOwn⟩ := ownEntries_least fields buying selling txn exclude
      obtain ⟨parentBest, grown, after, asked, leastParent, kept⟩ :=
        ih (excludeOffers fields exclude txn.mEntry.entries)
      refine ⟨lower (offerOrder fields) own parentBest, grown, after, ?_, ?_, kept⟩
      · unfold getBestOffer
        rw [looked]
        change (getBestOffer fields database root cache draws buying selling outer
          (excludeOffers fields exclude txn.mEntry.entries) >>= _) = _
        rw [asked]
        cases own with
        | none => rfl
        | some best =>
            cases parentBest with
            | none => rfl
            | some parent =>
                have compared := isBetterOffer_eq leastOwn.1.ofPair leastParent.1.ofPair
                by_cases better : offerOrder fields best < offerOrder fields parent
                · simp [lower, compared, better, pure, Except.pure, bind, Except.bind]
                · simp [lower, compared, better, pure, Except.pure, bind, Except.bind]
      · exact (leastOwn.lower leastParent).congr fun entry => candidate_cons

/-! ### Runs -/

theorem call_root {nesting after : Nesting κ ν} {call : Call κ ν} (ran : nesting.call call = .ok after)
    (below : call = .commit → ∀ txn, nesting.levels ≠ [txn]) : after.root = nesting.root := by
  have inner : ∀ f : View κ ν → Impl κ ν → Except Fault (Impl κ ν),
      nesting.innermost f = .ok after → after.root = nesting.root := by
    intro f ran
    obtain ⟨_, _, _, _, _, is⟩ := innermost_ok ran
    rw [is]
  cases call with
  | openChild shouldUpdateLastModified =>
      change nesting.openChild shouldUpdateLastModified = .ok after at ran
      unfold Nesting.openChild at ran
      simp only at ran
      split at ran
      · cases ran
        rfl
      · obtain ⟨_, _, opened⟩ := except_bind_ok.mp ran
        cases opened
        rfl
  | commit =>
      change nesting.commit = .ok after at ran
      unfold Nesting.commit at ran
      split at ran
      · cases ran
      · rename_i child levels
        exact absurd levels (below rfl child)
      · cases ran
        rfl
  | rollback descendants =>
      cases ran
      rfl
  | _ =>
      unfold Nesting.call at ran
      exact inner _ ran

namespace Offers

variable {database : Sorter (LedgerEntry κ ν)} {offers : Offers κ ν Asset}

variable (fields database offers) in
/-- The cache agrees with the database, and the records are kept under their keys. -/
structure Valid : Prop where
  cached : offers.mBestOffersCache.Holds (Loaded fields database offers.nesting.root)
  recorded : AllRecorded offers.nesting.root offers.nesting.levels

theorem call_valid (valid : offers.Valid fields database) {call : Call κ ν}
    {after : Offers κ ν Asset} (ran : offers.call call = .ok after) :
    after.Valid fields database := by
  unfold Offers.call at ran
  obtain ⟨nesting, called, ran⟩ := except_bind_ok.mp ran
  have recorded := call_recorded called valid.recorded
  split at ran
  · cases ran
    exact ⟨RandomEvictionCache.clear_holds, recorded⟩
  · rename_i below
    cases ran
    have same := call_root called (by
      intro commit txn levels
      exact below txn commit levels)
    refine ⟨?_, recorded⟩
    rw [same]
    exact valid.cached

theorem getBestOffer_valid (valid : offers.Valid fields database) {draws : Draws}
    {exclude : Finset κ} {res : Option (LedgerEntry κ ν)} {after : Offers κ ν Asset}
    (ran : offers.getBestOffer fields database draws buying selling exclude = .ok (res, after)) :
    after.Valid fields database := by
  obtain ⟨best, grown, cache, answered, _, kept⟩ :=
    getBestOffer_least valid.cached draws offers.nesting.levels exclude
  unfold Offers.getBestOffer at ran
  rw [answered] at ran
  cases ran
  exact ⟨kept, valid.recorded⟩

theorem loadBestOffer_valid (valid : offers.Valid fields database) {draws : Draws}
    {after : Offers κ ν Asset}
    (ran : offers.loadBestOffer fields database draws buying selling = .ok after) :
    after.Valid fields database := by
  unfold Offers.loadBestOffer at ran
  split at ran
  · cases ran
  · obtain ⟨_, _, ran⟩ := except_bind_ok.mp ran
    obtain ⟨⟨le, searched⟩, found, ran⟩ := except_bind_ok.mp ran
    have kept := getBestOffer_valid valid found
    cases le with
    | none =>
        cases ran
        exact kept
    | some best =>
        cases ran
        unfold Nesting.perform
        split
        · rename_i loaded called
          refine ⟨?_, call_recorded called kept.recorded⟩
          rw [call_root called (fun impossible => by cases impossible)]
          exact kept.cached
        · exact kept

theorem perform_valid (valid : offers.Valid fields database) (call : OfferCall κ ν Asset) :
    (offers.perform fields database call).Valid fields database := by
  cases call with
  | call called =>
      simp only [perform]
      split
      · rename_i after ran
        exact call_valid valid ran
      · exact valid
  | getBestOffer draws buying selling exclude =>
      simp only [perform]
      split
      · rename_i res after ran
        exact getBestOffer_valid valid ran
      · exact valid
  | loadBestOffer draws buying selling =>
      simp only [perform]
      split
      · rename_i after ran
        exact loadBestOffer_valid valid ran
      · exact valid

theorem run_valid (valid : offers.Valid fields database) (calls : List (OfferCall κ ν Asset)) :
    (offers.run fields database calls).Valid fields database := by
  unfold run
  induction calls generalizing offers with
  | nil => exact valid
  | cons call calls ih => exact ih (perform_valid valid call)

def start (root : Root κ ν) (maxSize : Nat) : Offers κ ν Asset :=
  { nesting := { root, levels := [] }, mBestOffersCache := RandomEvictionCache.empty maxSize }

theorem start_valid (root : Root κ ν) (maxSize : Nat) :
    (start root maxSize : Offers κ ν Asset).Valid fields database :=
  ⟨RandomEvictionCache.empty_holds maxSize, trivial⟩

/-! ### The minimum -/

variable (fields buying selling offers) in
/-- The offers of a pair that are seen through all open transactions and not left out. -/
abbrev Seen (exclude : Finset κ) (entry : LedgerEntry κ ν) : Prop :=
  Candidate fields buying selling (newest offers.nesting.root offers.nesting.levels) exclude entry

variable (fields buying selling offers) in
def DistinctIDs : Prop :=
  ∀ left right, offers.Seen fields buying selling ∅ left → offers.Seen fields buying selling ∅ right →
    fields.offerID left.key = fields.offerID right.key → left.key = right.key

variable (fields buying selling offers) in
/-- The answer is better than every other offer of the pair, and is missing where there is none. -/
def Minimum (exclude : Finset κ) : Option (LedgerEntry κ ν) → Prop
  | none => ∀ entry, ¬ offers.Seen fields buying selling exclude entry
  | some best =>
      offers.Seen fields buying selling exclude best ∧
        ∀ entry, offers.Seen fields buying selling exclude entry →
          entry = best ∨ isBetterOffer fields best entry = .ok true

omit [LinearOrder Price] in
theorem Seen.unrestricted {exclude : Finset κ} {entry : LedgerEntry κ ν}
    (seen : offers.Seen fields buying selling exclude entry) :
    offers.Seen fields buying selling ∅ entry := by
  obtain ⟨⟨key, offer, _, is⟩, ofPair⟩ := seen
  exact ⟨⟨key, offer, Finset.notMem_empty key, is⟩, ofPair⟩

theorem minimum_of_least (recorded : AllRecorded offers.nesting.root offers.nesting.levels)
    (distinct : offers.DistinctIDs fields buying selling) {exclude : Finset κ}
    {best : Option (LedgerEntry κ ν)}
    (least : LeastOf (offerOrder fields) (offers.Seen fields buying selling exclude) best) :
    offers.Minimum fields buying selling exclude best := by
  cases best with
  | none => exact least
  | some best =>
      refine ⟨least.1, ?_⟩
      intro entry seen
      rw [isBetterOffer_eq least.1.ofPair seen.ofPair]
      rcases (least.2 entry seen).lt_or_eq with below | same
      · right
        rw [decide_eq_true below]
      · left
        have ids : fields.offerID entry.key = fields.offerID best.key :=
          (congrArg (fun order => (ofLex order).2) same).symm
        have keys := distinct entry best seen.unrestricted least.1.unrestricted ids
        obtain ⟨⟨key, _, _, found⟩, _⟩ := seen
        obtain ⟨⟨bestKey, _, _, bestFound⟩, _⟩ := least.1
        rw [recorded.keyed key entry found, recorded.keyed bestKey best bestFound] at keys
        rw [keys, bestFound] at found
        cases found
        rfl

/-- After any run, whatever is open, pending and cached, the best offer is the minimum of the
offers of the pair. -/
theorem run_getBestOffer_minimum (root : Root κ ν) (maxSize : Nat)
    (calls : List (OfferCall κ ν Asset)) (draws : Draws) (buying selling : Asset)
    (exclude : Finset κ) (offers : Offers κ ν Asset)
    (reached : (start root maxSize).run fields database calls = offers)
    (distinct : offers.DistinctIDs fields buying selling) :
    ∃ best after,
      offers.getBestOffer fields database draws buying selling exclude = .ok (best, after) ∧
        offers.Minimum fields buying selling exclude best := by
  have valid : offers.Valid fields database := reached ▸ run_valid (start_valid root maxSize) calls
  obtain ⟨best, grown, cache, answered, least, _⟩ :=
    getBestOffer_least valid.cached draws offers.nesting.levels exclude
  refine ⟨best, { offers with mBestOffersCache := cache }, ?_,
    minimum_of_least valid.recorded distinct least⟩
  unfold Offers.getBestOffer
  rw [answered]
  rfl

def byPrice : OfferFields Nat Int Bool Int where
  isOffer _ := true
  offerID key := key
  buying _ := false
  selling _ := true
  price data := data

def twoOffers : Root Nat Int where
  rows := ((∅ : Map Nat (Row Int)).insert 1 ⟨3, 10⟩).insert 2 ⟨3, 8⟩
  mHeader :=
    { ledgerVersion := 11, closeTime := 0, ledgerSeq := 5, totalCoins := 1000, feePool := 0,
      inflationSeq := 0, idPool := 0, baseFee := 1, baseReserve := 10, maxTxSetSize := 1 }

/-- The better offer of the database is cached and then erased, and a third one is created. -/
theorem getBestOffer_minimum_pending :
    ∃ best after,
      ((start twoOffers 1).run byPrice (stableSorter _) [.getBestOffer ⟨0, 0⟩ false true ∅,
        .call (.openChild true), .call (.erase 2), .call (.create ⟨0, 3, 12⟩)]).getBestOffer byPrice
          (stableSorter _) ⟨0, 0⟩ false true {1} = .ok (best, after) ∧
      ((start twoOffers 1).run byPrice (stableSorter _) [.getBestOffer ⟨0, 0⟩ false true ∅,
        .call (.openChild true), .call (.erase 2), .call (.create ⟨0, 3, 12⟩)]).Minimum byPrice false
          true {1} best :=
  run_getBestOffer_minimum twoOffers 1 _ ⟨0, 0⟩ false true {1} _ rfl
    (fun _ _ _ _ same => Int.ofNat.inj same)

end Offers

end ViiCore.LedgerTxn
