import Mathlib.Order.WithBot
import ViiCore.Bucket.MergeVersions
import ViiCore.Library.SortedMerge

/-!
Buckets as ascending lists, and what the two ends of a merge do with them: what an iterator reads
of a bucket, what becomes of two entries of one key, and what is written of an entry.
-/

namespace ViiCore.Bucket

open SortedMerge (Ascending find join)

variable {κ ν : Type}

/-! ### The order of a bucket -/

namespace BucketEntry

def rank (entry : BucketEntry κ ν) : WithBot κ := entry.key?

def isInit : BucketEntry κ ν → Bool
  | .INITENTRY _ _ => true
  | _ => false

def isDead : BucketEntry κ ν → Bool
  | .DEADENTRY _ => true
  | _ => false

theorem rank_eq_bot {entry : BucketEntry κ ν} : entry.rank = ⊥ ↔ entry.key? = none := Iff.rfl

end BucketEntry

def entries (bucket : Bucket κ ν) : Bucket κ ν := bucket.filter fun entry => entry.key?.isSome

def header (protocolVersion : Nat) : Bucket κ ν :=
  if FIRST_PROTOCOL_SUPPORTING_INITENTRY_AND_METAENTRY ≤ protocolVersion then
    [.METAENTRY protocolVersion]
  else []

theorem keyed_of_mem_entries {bucket : Bucket κ ν} {entry : BucketEntry κ ν}
    (member : entry ∈ entries bucket) : entry.key? ≠ none :=
  Option.isSome_iff_ne_none.mp (List.mem_filter.mp member).2

theorem entries_of_keyed {bucket : Bucket κ ν} (keyed : ∀ entry ∈ bucket, entry.key? ≠ none) :
    entries bucket = bucket :=
  List.filter_eq_self.mpr fun entry member => Option.isSome_iff_ne_none.mpr (keyed entry member)

theorem entries_header_append (protocolVersion : Nat) {bucket : Bucket κ ν}
    (keyed : ∀ entry ∈ bucket, entry.key? ≠ none) :
    entries (header protocolVersion ++ bucket) = bucket := by
  unfold header
  split
  · exact entries_of_keyed keyed
  · exact entries_of_keyed keyed

section Order

variable [LinearOrder κ]

theorem cmp_iff {left right : BucketEntry κ ν} :
    BucketEntryIdCmp left right = true ↔ left.rank < right.rank := by
  unfold BucketEntryIdCmp BucketEntry.rank
  cases left.key? with
  | none =>
      cases right.key? with
      | none => exact ⟨fun impossible => absurd impossible Bool.false_ne_true,
          fun below => absurd below (lt_irrefl _)⟩
      | some rightKey => exact ⟨fun _ => WithBot.bot_lt_coe rightKey, fun _ => rfl⟩
  | some leftKey =>
      cases right.key? with
      | none => exact ⟨fun impossible => absurd impossible Bool.false_ne_true,
          fun below => absurd below not_lt_bot⟩
      | some rightKey => exact decide_eq_true_iff.trans WithBot.coe_lt_coe.symm

/-- No entry comes before or together with an earlier one. -/
def StrictlySorted (bucket : Bucket κ ν) : Prop :=
  bucket.Pairwise fun left right => BucketEntryIdCmp left right = true

instance (bucket : Bucket κ ν) : Decidable (StrictlySorted bucket) :=
  inferInstanceAs (Decidable (bucket.Pairwise _))

def lookup (key : κ) (bucket : Bucket κ ν) : Option (BucketEntry κ ν) :=
  bucket.find? fun entry => entry.key? = some key

theorem lookup_eq_find (key : κ) (bucket : Bucket κ ν) :
    lookup key bucket = find BucketEntry.rank (key : WithBot κ) bucket := rfl

theorem strictlySorted_iff {bucket : Bucket κ ν} :
    StrictlySorted bucket ↔ Ascending BucketEntry.rank bucket := by
  unfold StrictlySorted Ascending
  simp only [cmp_iff]

theorem StrictlySorted.unique {bucket : Bucket κ ν} (sorted : StrictlySorted bucket)
    {left right : BucketEntry κ ν} (inLeft : left ∈ bucket) (inRight : right ∈ bucket)
    (same : left.key? = right.key?) : left = right := by
  have ascending := strictlySorted_iff.mp sorted
  have foundLeft := ascending.find_rank inLeft
  have sameRank : left.rank = right.rank := same
  rw [sameRank, ascending.find_rank inRight] at foundLeft
  exact (Option.some.inj foundLeft).symm

theorem StrictlySorted.keyed_tail {first : BucketEntry κ ν} {rest : Bucket κ ν}
    (sorted : StrictlySorted (first :: rest)) : ∀ entry ∈ rest, entry.key? ≠ none := by
  intro entry member noKey
  have after := cmp_iff.mp ((List.pairwise_cons.mp sorted).1 entry member)
  rw [BucketEntry.rank_eq_bot.mpr noKey] at after
  exact not_lt_bot after

theorem StrictlySorted.meta_or_keyed {bucket : Bucket κ ν} (sorted : StrictlySorted bucket) :
    (∃ ledgerVersion rest, bucket = .METAENTRY ledgerVersion :: rest ∧ entries bucket = rest) ∨
      metadata bucket = 0 ∧ entries bucket = bucket := by
  cases bucket with
  | nil => exact .inr ⟨rfl, rfl⟩
  | cons first rest =>
      have keyed := sorted.keyed_tail
      rcases first.meta_or_keyed with ⟨ledgerVersion, rfl⟩ | firstKeyed
      · exact .inl ⟨ledgerVersion, rest, rfl, entries_of_keyed keyed⟩
      · right
        refine ⟨metadata_keyed firstKeyed rest, entries_of_keyed ?_⟩
        intro entry member
        rcases List.mem_cons.mp member with same | later
        · rw [same]
          exact firstKeyed
        · exact keyed entry later

theorem StrictlySorted.ascending_entries {bucket : Bucket κ ν} (sorted : StrictlySorted bucket) :
    Ascending BucketEntry.rank (entries bucket) :=
  (strictlySorted_iff.mp sorted).filter _

theorem lookup_entries {bucket : Bucket κ ν} (sorted : StrictlySorted bucket) (key : κ) :
    lookup key (entries bucket) = lookup key bucket := by
  rw [lookup_eq_find, entries, (strictlySorted_iff.mp sorted).find_filter, ← lookup_eq_find]
  cases found : lookup key bucket with
  | none => rfl
  | some entry =>
      have hasKey : entry.key? = some key := by simpa using List.find?_some found
      rw [Option.filter_some, if_pos]
      rw [hasKey]
      rfl

theorem ascending_header_append (protocolVersion : Nat) {bucket : Bucket κ ν}
    (keyed : ∀ entry ∈ bucket, entry.key? ≠ none) (ascending : Ascending BucketEntry.rank bucket) :
    Ascending BucketEntry.rank (header protocolVersion ++ bucket) := by
  unfold header
  split
  · apply List.pairwise_cons.mpr ⟨_, ascending⟩
    intro entry member
    exact cmp_iff.mp (cmp_meta (keyed entry member) protocolVersion)
  · exact ascending

end Order

/-! ### The table -/

def table : BucketEntry κ ν → BucketEntry κ ν → Option (BucketEntry κ ν)
  | .DEADENTRY _, .INITENTRY key entry => some (.LIVEENTRY key entry)
  | .INITENTRY _ _, .LIVEENTRY key entry => some (.INITENTRY key entry)
  | .INITENTRY _ _, .DEADENTRY _ => none
  | _, newEntry => some newEntry

theorem combine_ok {oldEntry newEntry : BucketEntry κ ν} {combined : Option (BucketEntry κ ν)}
    (ran : Merging.combine oldEntry newEntry = .ok combined) : combined = table oldEntry newEntry := by
  cases newEntry <;> cases oldEntry <;> cases ran <;> rfl

theorem combine_of_follows {oldEntry newEntry : BucketEntry κ ν} (keyed : newEntry.key? ≠ none)
    (follows : newEntry.isInit → oldEntry.isDead) :
    Merging.combine oldEntry newEntry = .ok (table oldEntry newEntry) := by
  cases newEntry with
  | METAENTRY ledgerVersion => exact absurd rfl keyed
  | LIVEENTRY key entry => cases oldEntry <;> rfl
  | DEADENTRY key => cases oldEntry <;> rfl
  | INITENTRY key entry =>
      cases oldEntry with
      | DEADENTRY oldKey => rfl
      | METAENTRY ledgerVersion => exact absurd (follows rfl) Bool.false_ne_true
      | LIVEENTRY oldKey oldValue => exact absurd (follows rfl) Bool.false_ne_true
      | INITENTRY oldKey oldValue => exact absurd (follows rfl) Bool.false_ne_true

theorem table_init {oldEntry newEntry item : BucketEntry κ ν} (resolved : table oldEntry newEntry = some item)
    (created : item.isInit) : oldEntry.isInit ∨ newEntry.isInit := by
  cases oldEntry <;> cases newEntry <;> cases resolved <;>
    first | exact .inl rfl | exact .inr rfl | cases created

theorem table_keepsRank [LinearOrder κ] : SortedMerge.KeepsRank (BucketEntry.rank (κ := κ) (ν := ν)) table := by
  intro oldEntry newEntry item _ resolved
  cases oldEntry <;> cases newEntry <;> cases resolved <;> rfl

/-! ### What an output iterator writes -/

def isWritten (keepDeadEntries : Bool) (entry : BucketEntry κ ν) : Bool :=
  keepDeadEntries || !entry.isDead

def Supported (protocolVersion : Nat) (entry : BucketEntry κ ν) : Prop :=
  entry.isInit → FIRST_PROTOCOL_SUPPORTING_INITENTRY_AND_METAENTRY ≤ protocolVersion

theorem checkProtocolLegality_supported {entry : BucketEntry κ ν} {protocolVersion : Nat}
    (keyed : entry.key? ≠ none) (supported : Supported protocolVersion entry) :
    checkProtocolLegality entry protocolVersion = .ok () := by
  unfold checkProtocolLegality
  split
  · rename_i early
    cases entry with
    | METAENTRY ledgerVersion => exact absurd rfl keyed
    | LIVEENTRY key value => rfl
    | DEADENTRY key => rfl
    | INITENTRY key value => exact absurd early (not_lt.mpr (supported rfl))
  · rfl

structure Wrote (out : BucketOutputIterator κ ν) (written : Bucket κ ν)
    (after : BucketOutputIterator κ ν) : Prop where
  bucket : after.getBucket = out.getBucket ++ written
  keep : after.mKeepDeadEntries = out.mKeepDeadEntries
  version : after.mMeta = out.mMeta

theorem Wrote.nothing (out : BucketOutputIterator κ ν) : Wrote out [] out :=
  ⟨(List.append_nil _).symm, rfl, rfl⟩

theorem Wrote.trans {out middle after : BucketOutputIterator κ ν} {first later : Bucket κ ν}
    (wroteFirst : Wrote out first middle) (wroteLater : Wrote middle later after) :
    Wrote out (first ++ later) after where
  bucket := by rw [wroteLater.bucket, wroteFirst.bucket, List.append_assoc]
  keep := wroteLater.keep.trans wroteFirst.keep
  version := wroteLater.version.trans wroteFirst.version

variable [LinearOrder κ]

theorem buffer_wrote {out : BucketOutputIterator κ ν} {entry : BucketEntry κ ν}
    (ascending : Ascending BucketEntry.rank (out.getBucket ++ [entry])) :
    ∃ after, out.buffer entry = .ok after ∧ Wrote out [entry] after := by
  unfold BucketOutputIterator.buffer
  cases waiting : out.mBuf with
  | none =>
      refine ⟨_, rfl, ?_, rfl, rfl⟩
      simp [BucketOutputIterator.getBucket, waiting]
  | some buffered =>
      have below : buffered.rank < entry.rank := by
        apply (List.pairwise_append.mp ascending).2.2 buffered _ entry List.mem_cons_self
        simp [BucketOutputIterator.getBucket, waiting]
      have notBefore : ¬ BucketEntryIdCmp entry buffered = true := by
        rw [cmp_iff]
        exact lt_asymm below
      refine ⟨_, assertThat_bind_ok.mpr ⟨decide_eq_true notBefore, rfl⟩, ?_, rfl, rfl⟩
      rw [if_pos (cmp_iff.mpr below)]
      simp [BucketOutputIterator.getBucket, waiting]

theorem put_keyed {out : BucketOutputIterator κ ν} {entry : BucketEntry κ ν}
    (keyed : entry.key? ≠ none) :
    out.put entry = (checkProtocolLegality entry out.mMeta).bind fun _ =>
      if isWritten out.mKeepDeadEntries entry then out.buffer entry else .ok out := by
  cases entry with
  | METAENTRY ledgerVersion => exact absurd rfl keyed
  | LIVEENTRY key value => simp [BucketOutputIterator.put, isWritten, BucketEntry.isDead]; rfl
  | DEADENTRY key =>
      cases keeps : out.mKeepDeadEntries <;>
        simp [BucketOutputIterator.put, isWritten, BucketEntry.isDead, keeps] <;> rfl
  | INITENTRY key value => simp [BucketOutputIterator.put, isWritten, BucketEntry.isDead]; rfl

theorem put_wrote {out after : BucketOutputIterator κ ν} {entry : BucketEntry κ ν}
    (keyed : entry.key? ≠ none)
    (ascending : Ascending BucketEntry.rank (out.getBucket ++ [entry]))
    (put : out.put entry = .ok after) :
    Wrote out ([entry].filter (isWritten out.mKeepDeadEntries)) after := by
  rw [put_keyed keyed] at put
  obtain ⟨_, -, put⟩ := except_bind_ok.mp put
  by_cases written : isWritten out.mKeepDeadEntries entry
  · rw [if_pos written] at put
    obtain ⟨next, buffered, wrote⟩ := buffer_wrote ascending
    rw [buffered] at put
    cases put
    rw [List.filter_cons_of_pos written]
    exact wrote
  · rw [if_neg written] at put
    cases put
    rw [List.filter_cons_of_neg written]
    exact Wrote.nothing out

theorem put_ok {out : BucketOutputIterator κ ν} {entry : BucketEntry κ ν}
    (keyed : entry.key? ≠ none) (supported : Supported out.mMeta entry)
    (ascending : Ascending BucketEntry.rank (out.getBucket ++ [entry])) :
    ∃ after, out.put entry = .ok after := by
  rw [put_keyed keyed, checkProtocolLegality_supported keyed supported]
  by_cases written : isWritten out.mKeepDeadEntries entry
  · obtain ⟨next, buffered, _⟩ := buffer_wrote ascending
    refine ⟨next, ?_⟩
    simp only [Except.bind, if_pos written]
    exact buffered
  · refine ⟨out, ?_⟩
    simp only [Except.bind, if_neg written]

theorem create_wrote (keepDeadEntries : Bool) (protocolVersion : Nat) :
    ∃ out : BucketOutputIterator κ ν,
      BucketOutputIterator.create keepDeadEntries protocolVersion = .ok out ∧
        out.getBucket = header protocolVersion ∧ out.mKeepDeadEntries = keepDeadEntries ∧
          out.mMeta = protocolVersion := by
  unfold BucketOutputIterator.create header
  by_cases supported : FIRST_PROTOCOL_SUPPORTING_INITENTRY_AND_METAENTRY ≤ protocolVersion
  · rw [if_pos supported]
    simp only [if_pos supported, BucketOutputIterator.put, checkProtocolLegality,
      not_lt.mpr supported]
    exact ⟨_, rfl, rfl, rfl, rfl⟩
  · rw [if_neg supported]
    simp only [if_neg supported]
    exact ⟨_, rfl, rfl, rfl, rfl⟩

/-! ### What iterators read -/

structure Standing (iterator : BucketInputIterator κ ν) (rest : Bucket κ ν) : Prop where
  entry : iterator.mEntry = rest.head?
  behind : iterator.mIn = rest.tail
  keyed : ∀ entry ∈ rest, entry.key? ≠ none

def Readable (version : Nat) (rest : Bucket κ ν) : Prop :=
  ∀ entry ∈ rest, entry.key? ≠ none ∧ Supported version entry

section

omit [LinearOrder κ]

theorem loadEntry_stands {mMetadata : Nat} {mSeenMetadata mSeenOtherEntries : Bool}
    {rest : Bucket κ ν} {iterator : BucketInputIterator κ ν}
    (keyed : ∀ entry ∈ rest, entry.key? ≠ none)
    (loaded : BucketInputIterator.loadEntry mMetadata mSeenMetadata mSeenOtherEntries rest =
      .ok iterator) : Standing iterator rest ∧ iterator.mMetadata = mMetadata := by
  cases rest with
  | nil =>
      cases loaded
      exact ⟨⟨rfl, rfl, keyed⟩, rfl⟩
  | cons entry rest =>
      rw [loadEntry_keyed_ok (keyed entry List.mem_cons_self) loaded]
      exact ⟨⟨rfl, rfl, keyed⟩, rfl⟩

theorem loadEntry_readable {mMetadata : Nat} (mSeenMetadata mSeenOtherEntries : Bool)
    {rest : Bucket κ ν} (readable : Readable mMetadata rest) :
    ∃ iterator, BucketInputIterator.loadEntry mMetadata mSeenMetadata mSeenOtherEntries rest =
      .ok iterator := by
  cases rest with
  | nil => exact ⟨_, rfl⟩
  | cons entry rest =>
      obtain ⟨keyed, supported⟩ := readable entry List.mem_cons_self
      rw [loadEntry_keyed keyed, BucketInputIterator.checkLoaded]
      split
      · rw [checkProtocolLegality_supported keyed supported]
        exact ⟨_, rfl⟩
      · exact ⟨_, rfl⟩

theorem Standing.next {iterator after : BucketInputIterator κ ν} {rest : Bucket κ ν}
    (stands : Standing iterator rest) (moved : iterator.next = .ok after) :
    Standing after rest.tail ∧ after.mMetadata = iterator.mMetadata := by
  apply loadEntry_stands (fun entry member => stands.keyed entry (List.mem_of_mem_tail member))
  rw [← stands.behind]
  exact moved

end

def Legal (bucket : Bucket κ ν) : Prop :=
  ∀ entry ∈ bucket, Supported (metadata bucket) entry

theorem StrictlySorted.read {bucket : Bucket κ ν} (sorted : StrictlySorted bucket)
    {iterator : BucketInputIterator κ ν}
    (opened : BucketInputIterator.read bucket = .ok iterator) :
    Standing iterator (entries bucket) := by
  rcases sorted.meta_or_keyed with ⟨ledgerVersion, rest, rfl, same⟩ | ⟨_, same⟩
  · rw [same]
    have keyed := sorted.keyed_tail
    exact (loadEntry_stands keyed opened).1
  · have keyed : ∀ entry ∈ bucket, entry.key? ≠ none := by
      rw [← same]
      intro entry member
      exact keyed_of_mem_entries member
    rw [same]
    exact (loadEntry_stands keyed opened).1

omit [LinearOrder κ] in
theorem Legal.readable {bucket : Bucket κ ν} (legal : Legal bucket) :
    Readable (metadata bucket) (entries bucket) := by
  intro entry member
  exact ⟨keyed_of_mem_entries member, legal entry (List.mem_of_mem_filter member)⟩

theorem StrictlySorted.read_ok {bucket : Bucket κ ν} (sorted : StrictlySorted bucket)
    (legal : Legal bucket) : ∃ iterator, BucketInputIterator.read bucket = .ok iterator := by
  have readable := legal.readable
  rcases sorted.meta_or_keyed with ⟨ledgerVersion, rest, rfl, same⟩ | ⟨version, same⟩
  · rw [same] at readable
    exact loadEntry_readable true false readable
  · rw [same, version] at readable
    exact loadEntry_readable false false readable

end ViiCore.Bucket
