import ViiCore.Bucket.MergeTable

/-!
The state that buckets describe.

A bucket hides what is below it at the keys it has entries for. An entry is read as a value of an
arbitrary type.
-/

namespace ViiCore.Bucket

open SortedMerge (Ascending)

variable {κ ν α : Type} (ofEntry : κ → ν → α)

def settled : BucketEntry κ ν → Option α
  | .LIVEENTRY key entry | .INITENTRY key entry => some (ofEntry key entry)
  | .DEADENTRY _ | .METAENTRY _ => none

variable [LinearOrder κ]

def overlay (base : κ → Option α) (bucket : Bucket κ ν) : κ → Option α := fun key =>
  match lookup key bucket with
  | some entry => settled ofEntry entry
  | none => base key

/-- The oldest bucket first. -/
def stateOf (base : κ → Option α) (buckets : List (Bucket κ ν)) : κ → Option α :=
  buckets.foldl (overlay ofEntry) base

variable {ofEntry}

theorem overlay_found {key : κ} {bucket : Bucket κ ν} {entry : BucketEntry κ ν}
    (found : lookup key bucket = some entry) (base : κ → Option α) :
    overlay ofEntry base bucket key = settled ofEntry entry := by
  unfold overlay
  rw [found]

theorem overlay_absent {key : κ} {bucket : Bucket κ ν} (absent : lookup key bucket = none)
    (base : κ → Option α) : overlay ofEntry base bucket key = base key := by
  unfold overlay
  rw [absent]

theorem overlay_single {entry : BucketEntry κ ν} {place : κ} (keyed : entry.key? = some place)
    (base : κ → Option α) (key : κ) :
    overlay ofEntry base [entry] key = if place = key then settled ofEntry entry else base key := by
  unfold overlay lookup
  by_cases same : place = key
  · rw [if_pos same, List.find?_cons_of_pos (by simp [keyed, same])]
  · rw [if_neg same, List.find?_cons_of_neg (by simp [keyed, same])]
    rfl

theorem overlay_cons {entry : BucketEntry κ ν} {rest : Bucket κ ν} (keyed : entry.key? ≠ none)
    (ascending : Ascending BucketEntry.rank (entry :: rest)) (base : κ → Option α) :
    overlay ofEntry base (entry :: rest) =
      overlay ofEntry (overlay ofEntry base [entry]) rest := by
  obtain ⟨place, isKey⟩ := Option.ne_none_iff_exists'.mp keyed
  funext key
  by_cases same : place = key
  · have absent : lookup key rest = none := by
      rw [lookup_eq_find]
      apply SortedMerge.find_of_above
      intro item member
      have above := (List.pairwise_cons.mp ascending).1 item member
      have isRank : entry.rank = (place : WithBot κ) := isKey
      rwa [isRank, same] at above
    have here : lookup key (entry :: rest) = some entry :=
      List.find?_cons_of_pos (by simp [isKey, same])
    rw [overlay_absent absent, overlay_single isKey, if_pos same, overlay_found here]
  · have skipped : lookup key (entry :: rest) = lookup key rest :=
      List.find?_cons_of_neg (by simp [isKey, same])
    cases found : lookup key rest with
    | some other => rw [overlay_found found, overlay_found (skipped.trans found)]
    | none =>
        rw [overlay_absent found, overlay_absent (skipped.trans found), overlay_single isKey,
          if_neg same]

end ViiCore.Bucket
