import Mathlib.Order.Defs.LinearOrder
import ViiCore.Bucket.BucketList
import ViiCore.Library.Sorting
import ViiCore.Util.Numeric

/-!
Buckets and how two of them are merged (`bucket/Bucket.cpp`, `bucket/BucketInputIterator.cpp`,
`bucket/BucketOutputIterator.cpp`, `bucket/LedgerCmp.h`).

A bucket is the list of the entries of its file; the empty bucket has no file. Ledger keys are an
arbitrary linear order. The counters of a merge are left out, and so are the names of files.
-/

namespace ViiCore.Bucket

def FIRST_PROTOCOL_SUPPORTING_INITENTRY_AND_METAENTRY : Nat := 11

inductive BucketEntry (κ ν : Type) where
  | METAENTRY (ledgerVersion : Nat)
  | LIVEENTRY (key : κ) (entry : ν)
  | DEADENTRY (key : κ)
  | INITENTRY (key : κ) (entry : ν)
  deriving DecidableEq

set_option linter.dupNamespace false in
abbrev Bucket (κ ν : Type) := List (BucketEntry κ ν)

variable {κ ν : Type} [LinearOrder κ]

namespace BucketEntry

def key? : BucketEntry κ ν → Option κ
  | .METAENTRY _ => none
  | .LIVEENTRY key _ => some key
  | .DEADENTRY key => some key
  | .INITENTRY key _ => some key

def isLifecycleEntry : BucketEntry κ ν → Bool
  | .INITENTRY _ _ => true
  | .DEADENTRY _ => true
  | _ => false

end BucketEntry

def BucketEntryIdCmp (left right : BucketEntry κ ν) : Bool :=
  match left.key?, right.key? with
  | none, none => false
  | none, some _ => true
  | some _, none => false
  | some leftKey, some rightKey => leftKey < rightKey

omit [LinearOrder κ] in
def checkProtocolLegality (entry : BucketEntry κ ν) (protocolVersion : Nat) : Except Fault Unit :=
  if protocolVersion < FIRST_PROTOCOL_SUPPORTING_INITENTRY_AND_METAENTRY then
    match entry with
    | .INITENTRY _ _ =>
        throw (.runtimeError s!"unsupported entry type INIT in protocol {protocolVersion} bucket")
    | .METAENTRY _ =>
        throw (.runtimeError s!"unsupported entry type META in protocol {protocolVersion} bucket")
    | _ => return ()
  else return ()

/-! ### Reading -/

structure BucketInputIterator (κ ν : Type) where
  mIn : List (BucketEntry κ ν)
  mEntry : Option (BucketEntry κ ν)
  mMetadata : Nat
  mSeenMetadata : Bool
  mSeenOtherEntries : Bool

namespace BucketInputIterator

omit [LinearOrder κ]

def checkLoaded (entry : BucketEntry κ ν) (mMetadata : Nat) (mSeenMetadata : Bool) :
    Except Fault Unit :=
  if mSeenMetadata then checkProtocolLegality entry mMetadata else return ()

def loadEntry (mMetadata : Nat) (mSeenMetadata mSeenOtherEntries : Bool) :
    List (BucketEntry κ ν) → Except Fault (BucketInputIterator κ ν)
  | [] =>
      return { mIn := [], mEntry := none, mMetadata, mSeenMetadata, mSeenOtherEntries }
  | .METAENTRY ledgerVersion :: mIn =>
      if mSeenMetadata then throw (.runtimeError "Malformed bucket: multiple META entries.")
      else if mSeenOtherEntries then
        throw (.runtimeError "Malformed bucket: META after other entries.")
      else loadEntry ledgerVersion true mSeenOtherEntries mIn
  | entry :: mIn => do
      checkLoaded entry mMetadata mSeenMetadata
      return { mIn, mEntry := some entry, mMetadata, mSeenMetadata, mSeenOtherEntries := true }

def read (bucket : Bucket κ ν) : Except Fault (BucketInputIterator κ ν) :=
  loadEntry 0 false false bucket

def next (iterator : BucketInputIterator κ ν) : Except Fault (BucketInputIterator κ ν) :=
  loadEntry iterator.mMetadata iterator.mSeenMetadata iterator.mSeenOtherEntries iterator.mIn

end BucketInputIterator

section

omit [LinearOrder κ]

theorem BucketEntry.meta_or_keyed (entry : BucketEntry κ ν) :
    (∃ ledgerVersion, entry = .METAENTRY ledgerVersion) ∨ entry.key? ≠ none := by
  cases entry with
  | METAENTRY ledgerVersion => exact .inl ⟨ledgerVersion, rfl⟩
  | LIVEENTRY key value => exact .inr nofun
  | DEADENTRY key => exact .inr nofun
  | INITENTRY key value => exact .inr nofun

theorem loadEntry_keyed {entry : BucketEntry κ ν} (keyed : entry.key? ≠ none) (mMetadata : Nat)
    (mSeenMetadata mSeenOtherEntries : Bool) (mIn : Bucket κ ν) :
    BucketInputIterator.loadEntry mMetadata mSeenMetadata mSeenOtherEntries (entry :: mIn) =
      (BucketInputIterator.checkLoaded entry mMetadata mSeenMetadata).map fun _ =>
        { mIn, mEntry := some entry, mMetadata, mSeenMetadata, mSeenOtherEntries := true } := by
  cases entry with
  | METAENTRY ledgerVersion => exact absurd rfl keyed
  | LIVEENTRY key value => rfl
  | DEADENTRY key => rfl
  | INITENTRY key value => rfl

theorem loadEntry_keyed_ok {entry : BucketEntry κ ν} (keyed : entry.key? ≠ none) {mMetadata : Nat}
    {mSeenMetadata mSeenOtherEntries : Bool} {mIn : Bucket κ ν} {iterator : BucketInputIterator κ ν}
    (loaded : BucketInputIterator.loadEntry mMetadata mSeenMetadata mSeenOtherEntries
      (entry :: mIn) = .ok iterator) :
    iterator =
      { mIn, mEntry := some entry, mMetadata, mSeenMetadata, mSeenOtherEntries := true } := by
  rw [loadEntry_keyed keyed] at loaded
  cases checked : BucketInputIterator.checkLoaded entry mMetadata mSeenMetadata with
  | error fault =>
      rw [checked] at loaded
      cases loaded
  | ok done =>
      rw [checked] at loaded
      cases loaded
      rfl

end

/-! ### Writing -/

structure BucketOutputIterator (κ ν : Type) where
  mOut : List (BucketEntry κ ν)
  mBuf : Option (BucketEntry κ ν)
  mKeepDeadEntries : Bool
  mMeta : Nat
  mPutMeta : Bool

namespace BucketOutputIterator

/-- Only one entry of a key is written: the last one. -/
def buffer (out : BucketOutputIterator κ ν) (entry : BucketEntry κ ν) :
    Except Fault (BucketOutputIterator κ ν) :=
  match out.mBuf with
  | none => return { out with mBuf := some entry }
  | some buffered => do
      assertThat (¬ BucketEntryIdCmp entry buffered) "!mCmp(e, *mBuf)"
      let written := if BucketEntryIdCmp buffered entry then out.mOut ++ [buffered] else out.mOut
      return { out with mOut := written, mBuf := some entry }

def put (out : BucketOutputIterator κ ν) (entry : BucketEntry κ ν) :
    Except Fault (BucketOutputIterator κ ν) := do
  checkProtocolLegality entry out.mMeta
  match entry with
  | .METAENTRY _ =>
      if out.mPutMeta then
        throw (.runtimeError "putting META entry in bucket after initial entry")
      else out.buffer entry
  | .DEADENTRY _ => if ¬ out.mKeepDeadEntries then return out else out.buffer entry
  | _ => out.buffer entry

def create (keepDeadEntries : Bool) (protocolVersion : Nat) :
    Except Fault (BucketOutputIterator κ ν) := do
  let out : BucketOutputIterator κ ν :=
    { mOut := [], mBuf := none, mKeepDeadEntries := keepDeadEntries, mMeta := protocolVersion,
      mPutMeta := false }
  if protocolVersion ≥ FIRST_PROTOCOL_SUPPORTING_INITENTRY_AND_METAENTRY then
    return { ← out.put (.METAENTRY protocolVersion) with mPutMeta := true }
  else return out

omit [LinearOrder κ] in
def getBucket (out : BucketOutputIterator κ ν) : Bucket κ ν := out.mOut ++ out.mBuf.toList

end BucketOutputIterator

/-! ### Fresh buckets -/

structure Batch (κ ν : Type) where
  currLedgerProtocol : Nat
  initEntries : List (κ × ν)
  liveEntries : List (κ × ν)
  deadEntries : List κ

/-- Entries of one key are not allowed, so how the sort orders them does not matter. -/
def convertToBucketEntry (useInit : Bool) (batch : Batch κ ν) : Except Fault (Bucket κ ν) := do
  let entries : List (BucketEntry κ ν) :=
    batch.initEntries.map (fun (key, entry) =>
      if useInit then .INITENTRY key entry else .LIVEENTRY key entry) ++
    batch.liveEntries.map (fun (key, entry) => .LIVEENTRY key entry) ++
    batch.deadEntries.map .DEADENTRY
  let sorted := (Sorting.stableSorter _).sort BucketEntryIdCmp entries
  assertThat (sorted.IsChain fun left right => BucketEntryIdCmp left right) "adjacent_find"
  return sorted

def putAll (out : BucketOutputIterator κ ν) :
    List (BucketEntry κ ν) → Except Fault (BucketOutputIterator κ ν)
  | [] => return out
  | entry :: rest => do putAll (← out.put entry) rest

def fresh (batch : Batch κ ν) : Except Fault (Bucket κ ν) := do
  let useInit :=
    batch.currLedgerProtocol ≥ FIRST_PROTOCOL_SUPPORTING_INITENTRY_AND_METAENTRY
  let entries ← convertToBucketEntry useInit batch
  let out ← putAll (← BucketOutputIterator.create true batch.currLedgerProtocol) entries
  return out.getBucket

/-! ### Shadows -/

/-- The loop that moves a shadow up to an entry. A shadow stands at fewer entries than its file
has. -/
def skipBefore (entry : BucketEntry κ ν) :
    Nat → BucketInputIterator κ ν → Except Fault (BucketInputIterator κ ν)
  | 0, _ => throw .diverged
  | fuel + 1, shadow =>
      match shadow.mEntry with
      | none => return shadow
      | some current =>
          if BucketEntryIdCmp current entry then do skipBefore entry fuel (← shadow.next)
          else return shadow

/-- Whether some shadow has an entry of the same key; the shadows before it have moved. -/
def scanShadows (entry : BucketEntry κ ν) : List (BucketInputIterator κ ν) →
    Except Fault (Bool × List (BucketInputIterator κ ν))
  | [] => return (false, [])
  | shadow :: rest => do
      let shadow ← skipBefore entry (shadow.mIn.length + 2) shadow
      if shadow.mEntry.any fun current => ¬ BucketEntryIdCmp entry current then
        return (true, shadow :: rest)
      else
        let (shadowed, rest) ← scanShadows entry rest
        return (shadowed, shadow :: rest)

/-! ### Merging -/

structure Merging (κ ν : Type) where
  oi : BucketInputIterator κ ν
  ni : BucketInputIterator κ ν
  shadowIterators : List (BucketInputIterator κ ν)
  out : BucketOutputIterator κ ν

namespace Merging

variable (protocolVersion : Nat) (keepShadowedLifecycleEntries : Bool)

def maybePut (merging : Merging κ ν) (entry : BucketEntry κ ν) : Except Fault (Merging κ ν) := do
  if keepShadowedLifecycleEntries ∧ entry.isLifecycleEntry then
    return { merging with out := ← merging.out.put entry }
  else
    let (shadowed, shadowIterators) ← scanShadows entry merging.shadowIterators
    if shadowed then return { merging with shadowIterators }
    else return { merging with shadowIterators, out := ← merging.out.put entry }

def acceptOld (merging : Merging κ ν) (old : BucketEntry κ ν) : Except Fault (Merging κ ν) := do
  checkProtocolLegality old protocolVersion
  let merging ← merging.maybePut keepShadowedLifecycleEntries old
  return { merging with oi := ← merging.oi.next }

def acceptNew (merging : Merging κ ν) (new : BucketEntry κ ν) : Except Fault (Merging κ ν) := do
  checkProtocolLegality new protocolVersion
  let merging ← merging.maybePut keepShadowedLifecycleEntries new
  return { merging with ni := ← merging.ni.next }

/-- The entry that stands for two of the same key, or none where both cancel out. -/
def combine (oldEntry newEntry : BucketEntry κ ν) : Except Fault (Option (BucketEntry κ ν)) :=
  match newEntry with
  | .INITENTRY key entry =>
      match oldEntry with
      | .DEADENTRY _ => return some (.LIVEENTRY key entry)
      | _ => throw (.runtimeError "Malformed bucket: old non-DEAD + new INIT.")
  | _ =>
      match oldEntry with
      | .INITENTRY _ _ =>
          match newEntry with
          | .LIVEENTRY key entry => return some (.INITENTRY key entry)
          | .DEADENTRY _ => return none
          | _ => throw (.runtimeError "Malformed bucket: old INIT + new non-DEAD.")
      | _ => return some newEntry

def putCombined (merging : Merging κ ν) : Option (BucketEntry κ ν) → Except Fault (Merging κ ν)
  | some entry => merging.maybePut keepShadowedLifecycleEntries entry
  | none => return merging

def mergeCasesWithEqualKeys (merging : Merging κ ν) (oldEntry newEntry : BucketEntry κ ν) :
    Except Fault (Merging κ ν) := do
  checkProtocolLegality oldEntry protocolVersion
  checkProtocolLegality newEntry protocolVersion
  let merging ← merging.putCombined keepShadowedLifecycleEntries (← combine oldEntry newEntry)
  return { merging with oi := ← merging.oi.next, ni := ← merging.ni.next }

def step (merging : Merging κ ν) : Except Fault (Merging κ ν) :=
  match merging.oi.mEntry, merging.ni.mEntry with
  | none, none => return merging
  | some old, none => merging.acceptOld protocolVersion keepShadowedLifecycleEntries old
  | none, some new => merging.acceptNew protocolVersion keepShadowedLifecycleEntries new
  | some old, some new =>
      if BucketEntryIdCmp old new then
        merging.acceptOld protocolVersion keepShadowedLifecycleEntries old
      else if BucketEntryIdCmp new old then
        merging.acceptNew protocolVersion keepShadowedLifecycleEntries new
      else merging.mergeCasesWithEqualKeys protocolVersion keepShadowedLifecycleEntries old new

def loop : Nat → Merging κ ν → Except Fault (Merging κ ν)
  | 0, _ => throw .diverged
  | fuel + 1, merging =>
      if merging.oi.mEntry.isNone ∧ merging.ni.mEntry.isNone then return merging
      else do loop fuel (← merging.step protocolVersion keepShadowedLifecycleEntries)

end Merging

omit [LinearOrder κ] in
/-- The version of a merge is that of its newest input, and must not be newer than the ledger. -/
def calculateMergeProtocolVersion (maxProtocolVersion : Nat) (oi ni : BucketInputIterator κ ν)
    (shadowIterators : List (BucketInputIterator κ ν)) : Except Fault (Nat × Bool) :=
  let protocolVersion := shadowIterators.foldl (fun version shadow => max shadow.mMetadata version)
    (max oi.mMetadata ni.mMetadata)
  if protocolVersion > maxProtocolVersion then
    throw (.runtimeError
      s!"bucket protocol version {protocolVersion} exceeds maxProtocolVersion {maxProtocolVersion}")
  else
    return (protocolVersion,
      protocolVersion ≥ FIRST_PROTOCOL_SUPPORTING_INITENTRY_AND_METAENTRY)

def merge (maxProtocolVersion : Nat) (oldBucket newBucket : Bucket κ ν)
    (shadows : List (Bucket κ ν)) (keepDeadEntries : Bool) : Except Fault (Bucket κ ν) := do
  let oi ← BucketInputIterator.read oldBucket
  let ni ← BucketInputIterator.read newBucket
  let shadowIterators ← shadows.mapM BucketInputIterator.read
  let (protocolVersion, keepShadowedLifecycleEntries) ←
    calculateMergeProtocolVersion maxProtocolVersion oi ni shadowIterators
  let out ← BucketOutputIterator.create keepDeadEntries protocolVersion
  let merged ← Merging.loop protocolVersion keepShadowedLifecycleEntries
    (oldBucket.length + newBucket.length + 1) { oi, ni, shadowIterators, out }
  return merged.out.getBucket

end ViiCore.Bucket
