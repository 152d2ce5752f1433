import Mathlib.Data.List.AList
import Mathlib.Algebra.BigOperators.Group.List.Basic
import Mathlib.Algebra.Order.BigOperators.Group.List
import Mathlib.Algebra.Order.Group.Int
import Mathlib.Algebra.Ring.Int.Defs

/-!
Finite maps with sums over their entries.

`total f map` adds up `f key value` over the entries of a map. An update of one key
changes it by the new contribution of the key minus the old one, so a quantity
accumulated over a whole store can be tracked through single updates.
-/

namespace ViiCore.FiniteMap

variable {κ ν : Type} [DecidableEq κ]

abbrev Map (κ ν : Type) := AList (fun _ : κ => ν)

def total (f : κ → ν → Int) (map : Map κ ν) : Int :=
  (map.entries.map fun entry => f entry.1 entry.2).sum

def share (f : κ → ν → Int) (map : Map κ ν) (key : κ) : Int :=
  ((map.lookup key).map (f key)).getD 0

theorem share_of_lookup {f : κ → ν → Int} {map : Map κ ν} {key : κ} {value : ν}
    (found : map.lookup key = some value) : share f map key = f key value := by
  simp [share, found]

theorem share_of_absent {f : κ → ν → Int} {map : Map κ ν} {key : κ}
    (absent : map.lookup key = none) : share f map key = 0 := by
  simp [share, absent]

private theorem sum_kerase (f : κ → ν → Int) (key : κ) (entries : List (Sigma fun _ : κ => ν)) :
    ((entries.kerase key).map fun entry => f entry.1 entry.2).sum =
      (entries.map fun entry => f entry.1 entry.2).sum -
        ((entries.dlookup key).map (f key)).getD 0 := by
  induction entries with
  | nil => rfl
  | cons head tail ih =>
      by_cases same : key = head.1
      · subst same
        have erased : List.kerase head.1 (head :: tail) = tail := List.kerase_cons_eq rfl
        have found : List.dlookup head.1 (head :: tail) = some head.2 := List.dlookup_cons_eq tail ..
        rw [erased, found]
        simp
      · have kept : List.kerase key (head :: tail) = head :: List.kerase key tail :=
          List.kerase_cons_ne same
        have passed : List.dlookup key (head :: tail) = List.dlookup key tail :=
          List.dlookup_cons_ne tail head same
        rw [kept, passed, List.map_cons, List.map_cons, List.sum_cons, List.sum_cons, ih]
        omega

theorem total_erase (f : κ → ν → Int) (map : Map κ ν) (key : κ) :
    total f (map.erase key) = total f map - share f map key := by
  have removed := sum_kerase f key map.entries
  unfold total share AList.erase AList.lookup
  exact removed

theorem total_insert (f : κ → ν → Int) (map : Map κ ν) (key : κ) (value : ν) :
    total f (map.insert key value) = total f map - share f map key + f key value := by
  have removed := total_erase f map key
  unfold total AList.erase at removed
  unfold total
  rw [AList.entries_insert]
  simp only [List.map_cons, List.sum_cons, removed]
  omega

theorem total_nonneg (f : κ → ν → Int) (map : Map κ ν)
    (nonneg : ∀ key value, map.lookup key = some value → 0 ≤ f key value) : 0 ≤ total f map := by
  unfold total
  apply List.sum_nonneg
  intro summand member
  obtain ⟨⟨key, value⟩, entry, rfl⟩ := List.mem_map.mp member
  exact nonneg key value (AList.mem_lookup_iff.mpr entry)

theorem share_le_total (f : κ → ν → Int) (map : Map κ ν) (key : κ)
    (nonneg : ∀ key value, map.lookup key = some value → 0 ≤ f key value) :
    share f map key ≤ total f map := by
  have rest : 0 ≤ total f (map.erase key) := by
    apply total_nonneg
    intro other value found
    by_cases same : other = key
    · subst same
      simp at found
    · rw [AList.lookup_erase_ne same] at found
      exact nonneg other value found
  rw [total_erase] at rest
  omega

theorem sum_shares_le_total (f : κ → ν → Int) (map : Map κ ν) {keys : List κ}
    (different : keys.Nodup) (nonneg : ∀ key value, map.lookup key = some value → 0 ≤ f key value) :
    (keys.map (share f map)).sum ≤ total f map := by
  induction keys generalizing map with
  | nil => exact total_nonneg f map nonneg
  | cons key rest ih =>
      obtain ⟨fresh, restDifferent⟩ := List.nodup_cons.mp different
      have later := ih (map.erase key) restDifferent fun other value found => by
        by_cases same : other = key
        · subst same
          simp at found
        · rw [AList.lookup_erase_ne same] at found
          exact nonneg other value found
      have shares : rest.map (share f (map.erase key)) = rest.map (share f map) := by
        apply List.map_congr_left
        intro other member
        have other_ne : other ≠ key := fun same => fresh (same ▸ member)
        unfold share
        rw [AList.lookup_erase_ne other_ne]
      rw [shares, total_erase] at later
      rw [List.map_cons, List.sum_cons]
      omega

theorem total_congr (f g : κ → ν → Int) (map : Map κ ν)
    (agree : ∀ key value, map.lookup key = some value → f key value = g key value) :
    total f map = total g map := by
  unfold total
  congr 1
  apply List.map_congr_left
  intro entry member
  exact agree entry.1 entry.2 (AList.mem_lookup_iff.mpr member)

theorem total_zero (f : κ → ν → Int) (map : Map κ ν)
    (zero : ∀ key value, map.lookup key = some value → f key value = 0) : total f map = 0 := by
  rw [total_congr f (fun _ _ => 0) map zero]
  unfold total
  simp

def put (map : Map κ ν) (key : κ) (value : Option ν) : Map κ ν :=
  match value with
  | some value => map.insert key value
  | none => map.erase key

@[simp] theorem lookup_put (map : Map κ ν) (key : κ) (value : Option ν) :
    (put map key value).lookup key = value := by
  cases value with
  | none => exact AList.lookup_erase key map
  | some value => exact AList.lookup_insert map

theorem lookup_put_ne {map : Map κ ν} {key other : κ} (different : other ≠ key)
    (value : Option ν) : (put map key value).lookup other = map.lookup other := by
  cases value with
  | none => exact AList.lookup_erase_ne different
  | some value => exact AList.lookup_insert_ne different

theorem total_put (f : κ → ν → Int) (map : Map κ ν) (key : κ) (value : Option ν) :
    total f (put map key value) = total f map - share f map key + (value.map (f key)).getD 0 := by
  cases value with
  | none =>
      simp only [put, total_erase, Option.map_none, Option.getD_none]
      omega
  | some value => exact total_insert f map key value

def restrict (keep : ν → Bool) (map : Map κ ν) : Map κ ν where
  entries := map.entries.filter fun entry => keep entry.2
  nodupKeys := map.nodupKeys.sublist List.filter_sublist

def mapValues {ω : Type} (f : ν → ω) (map : Map κ ν) : Map κ ω where
  entries := map.entries.map fun entry => ⟨entry.1, f entry.2⟩
  nodupKeys := by
    unfold List.NodupKeys List.keys
    rw [List.map_map]
    exact map.nodupKeys

theorem lookup_mapValues {ω : Type} (f : ν → ω) (map : Map κ ν) (key : κ) :
    (mapValues f map).lookup key = (map.lookup key).map f := by
  have general : ∀ entries : List (Sigma fun _ : κ => ν),
      List.dlookup key (entries.map fun entry => (⟨entry.1, f entry.2⟩ : Sigma fun _ : κ => ω)) =
        (List.dlookup key entries).map f := by
    intro entries
    induction entries with
    | nil => rfl
    | cons head tail ih =>
        rw [List.map_cons]
        by_cases same : key = head.1
        · subst same
          rw [List.dlookup_cons_eq, List.dlookup_cons_eq]
          rfl
        · rw [List.dlookup_cons_ne tail head same, ← ih]
          exact List.dlookup_cons_ne _ (⟨head.1, f head.2⟩ : Sigma fun _ : κ => ω) same
  exact general map.entries

end ViiCore.FiniteMap
