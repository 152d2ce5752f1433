import Mathlib.Data.List.Sigma
import Mathlib.Logic.Function.Basic

/-!
Replaying edits of a view from keys to optional values.

An edit fits some values of its key only, so a list of edits that can be replayed says what was
there before. A record of new values, one for each key, is replayed by any blocks of edits that
each bring the key of one record to its new value.
-/

namespace ViiCore.Replay

variable {κ α : Type} [DecidableEq κ]

structure Edit (κ α : Type) where
  key : κ
  fits : Option α → Bool
  result : Option α

def replay : List (Edit κ α) → (κ → Option α) → Option (κ → Option α)
  | [], view => some view
  | edit :: rest, view =>
      if edit.fits (view edit.key) then replay rest (Function.update view edit.key edit.result)
      else none

theorem replay_append (early late : List (Edit κ α)) (view : κ → Option α) :
    replay (early ++ late) view = (replay early view).bind (replay late) := by
  induction early generalizing view with
  | nil => rfl
  | cons edit rest ih =>
      change (if edit.fits (view edit.key)
          then replay (rest ++ late) (Function.update view edit.key edit.result) else none) =
        (if edit.fits (view edit.key)
          then replay rest (Function.update view edit.key edit.result) else none).bind (replay late)
      split
      · exact ih _
      · rfl

def overlay (records : List (Sigma fun _ : κ => Option α)) (view : κ → Option α) : κ → Option α :=
  fun key => (records.dlookup key).getD (view key)

theorem overlay_cons (record : Sigma fun _ : κ => Option α)
    (records : List (Sigma fun _ : κ => Option α)) (view : κ → Option α)
    (fresh : record.1 ∉ records.keys) :
    overlay (record :: records) view = overlay records (Function.update view record.1 record.2) := by
  funext key
  unfold overlay
  by_cases same : key = record.1
  · subst same
    rw [List.dlookup_eq_none.mpr fresh, Option.getD_none, Function.update_self]
    have head : List.dlookup record.1 (record :: records) = some record.2 :=
      List.dlookup_cons_eq records record.1 record.2
    rw [head]
    rfl
  · rw [Function.update_of_ne same]
    have tail : List.dlookup key (record :: records) = List.dlookup key records :=
      List.dlookup_cons_ne records record same
    rw [tail]

theorem overlay_perm {records other : List (Sigma fun _ : κ => Option α)}
    (distinct : records.NodupKeys) (same : records.Perm other) (view : κ → Option α) :
    overlay records view = overlay other view := by
  funext key
  unfold overlay
  rw [List.perm_dlookup key distinct same]

theorem overlay_of_mem {records : List (Sigma fun _ : κ => Option α)}
    (distinct : records.NodupKeys) {record : Sigma fun _ : κ => Option α}
    (member : record ∈ records) (view : κ → Option α) :
    overlay records view record.1 = record.2 := by
  have found : records.dlookup record.1 = some record.2 :=
    List.mem_dlookup distinct member
  rw [overlay, found, Option.getD_some]

theorem replay_blocks (block : (Sigma fun _ : κ => Option α) → List (Edit κ α))
    (records : List (Sigma fun _ : κ => Option α)) (view : κ → Option α)
    (distinct : records.NodupKeys)
    (brings : ∀ record ∈ records, ∀ other : κ → Option α, other record.1 = view record.1 →
      replay (block record) other = some (Function.update other record.1 record.2)) :
    replay (records.flatMap block) view = some (overlay records view) := by
  induction records generalizing view with
  | nil => rfl
  | cons record rest ih =>
      obtain ⟨fresh, distinctRest⟩ := List.nodupKeys_cons.mp distinct
      rw [List.flatMap_cons, replay_append, brings record List.mem_cons_self view rfl,
        Option.bind_some, overlay_cons record rest view fresh]
      apply ih _ distinctRest
      intro later member other agrees
      apply brings later (List.mem_cons_of_mem _ member)
      have different : later.1 ≠ record.1 := by
        intro same
        apply fresh
        rw [← same]
        exact List.mem_keys_of_mem member
      rw [agrees, Function.update_of_ne different]

end ViiCore.Replay
