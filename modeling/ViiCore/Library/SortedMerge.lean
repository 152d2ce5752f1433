import Mathlib.Data.List.Sort

/-!
Lists in ascending order with at most one item of each rank, and their merge: where both lists have
an item of one rank, a table says what becomes of the two.

Such a list is known from what it has at each rank, so the merge is associative where the table is.
-/

namespace ViiCore.SortedMerge

variable {α β : Type} [LinearOrder β] (rank : α → β)

def Ascending (items : List α) : Prop := items.Pairwise fun left right => rank left < rank right

def find (place : β) (items : List α) : Option α := items.find? fun item => rank item = place

variable {rank} {items left right : List α} {item : α} {place : β}

@[simp] theorem find_nil : find rank place [] = none := rfl

theorem find_cons_same (here : rank item = place) : find rank place (item :: items) = some item := by
  simp [find, here]

theorem find_cons_other (elsewhere : rank item ≠ place) :
    find rank place (item :: items) = find rank place items := by
  simp [find, elsewhere]

theorem find_eq_none : find rank place items = none ↔ ∀ item ∈ items, rank item ≠ place := by
  simp [find]

theorem find_append : find rank place (left ++ right) =
    (find rank place left).or (find rank place right) := by
  simp [find]

theorem find_of_above (above : ∀ item ∈ items, place < rank item) : find rank place items = none :=
  find_eq_none.mpr fun item member => (above item member).ne'

theorem mem_of_find (found : find rank place items = some item) : item ∈ items :=
  List.mem_of_find?_eq_some found

theorem Ascending.find_rank (ascending : Ascending rank items) (member : item ∈ items) :
    find rank (rank item) items = some item := by
  induction items with
  | nil => cases member
  | cons head tail ih =>
      obtain ⟨above, ascendingTail⟩ := List.pairwise_cons.mp ascending
      rcases List.mem_cons.mp member with same | later
      · rw [← same]
        exact find_cons_same rfl
      · rw [find_cons_other (above item later).ne]
        exact ih ascendingTail later

theorem Ascending.find_filter (ascending : Ascending rank items) (keep : α → Bool) :
    find rank place (items.filter keep) = (find rank place items).filter keep := by
  induction items with
  | nil => rfl
  | cons head tail ih =>
      obtain ⟨above, ascendingTail⟩ := List.pairwise_cons.mp ascending
      by_cases here : rank head = place
      · rw [find_cons_same here]
        by_cases kept : keep head
        · rw [List.filter_cons_of_pos kept, find_cons_same here, Option.filter_some, if_pos kept]
        · rw [List.filter_cons_of_neg kept, Option.filter_some, if_neg kept]
          apply find_of_above
          intro item member
          rw [← here]
          exact above item (List.mem_of_mem_filter member)
      · rw [find_cons_other here, ← ih ascendingTail]
        by_cases kept : keep head
        · rw [List.filter_cons_of_pos kept, find_cons_other here]
        · rw [List.filter_cons_of_neg kept]

theorem eq_of_find (leftAscending : Ascending rank left) (rightAscending : Ascending rank right)
    (same : ∀ place, find rank place left = find rank place right) : left = right := by
  have distinct : ∀ {items : List α}, Ascending rank items → items.Nodup := by
    intro items ascending
    apply ascending.imp
    intro first second before equal
    rw [equal] at before
    exact lt_irrefl _ before
  have permuted : left.Perm right := by
    apply (List.perm_ext_iff_of_nodup (distinct leftAscending) (distinct rightAscending)).mpr
    intro item
    constructor
    · intro member
      have found := leftAscending.find_rank member
      rw [same] at found
      exact mem_of_find found
    · intro member
      have found := rightAscending.find_rank member
      rw [← same] at found
      exact mem_of_find found
  apply List.Perm.eq_of_pairwise _ leftAscending rightAscending permuted
  intro first second _ _ before after
  exact absurd before (lt_asymm after)

/-! ### The merge -/

variable (rank) (table : α → α → Option α)

def merge : List α → List α → List α
  | [], news => news
  | olds, [] => olds
  | old :: olds, new :: news =>
      if rank old < rank new then old :: merge olds (new :: news)
      else if rank new < rank old then new :: merge (old :: olds) news
      else (table old new).toList ++ merge olds news
termination_by olds news => olds.length + news.length

def join : Option α → Option α → Option α
  | none, new => new
  | old, none => old
  | some old, some new => table old new

def KeepsRank : Prop := ∀ old new item, rank old = rank new → table old new = some item →
  rank item = rank new

variable {rank table} {olds news : List α}

@[simp] theorem merge_nil_left : merge rank table [] news = news := by
  unfold merge
  rfl

@[simp] theorem merge_nil_right : merge rank table olds [] = olds := by
  cases olds with
  | nil => exact merge_nil_left
  | cons old olds =>
      unfold merge
      rfl

section Heads

variable {old new : α}

theorem merge_of_lt (before : rank old < rank new) :
    merge rank table (old :: olds) (new :: news) = old :: merge rank table olds (new :: news) := by
  rw [merge, if_pos before]

theorem merge_of_gt (before : rank new < rank old) :
    merge rank table (old :: olds) (new :: news) = new :: merge rank table (old :: olds) news := by
  rw [merge, if_neg (lt_asymm before), if_pos before]

theorem merge_of_eq (same : rank old = rank new) :
    merge rank table (old :: olds) (new :: news) =
      (table old new).toList ++ merge rank table olds news := by
  rw [merge, if_neg same.not_lt, if_neg same.not_gt]

end Heads

@[simp] theorem join_none_left (new : Option α) : join table none new = new := rfl

@[simp] theorem join_none_right (old : Option α) : join table old none = old := by
  cases old <;> rfl

@[simp] theorem join_some (old new : α) : join table (some old) (some new) = table old new := rfl

theorem rank_of_mem_merge (keeps : KeepsRank rank table) (member : item ∈ merge rank table olds news) :
    ∃ source ∈ olds ++ news, rank source = rank item := by
  fun_induction merge rank table olds news with
  | case1 news => exact ⟨item, member, rfl⟩
  | case2 olds => exact ⟨item, List.mem_append_left _ member, rfl⟩
  | case3 old olds new news before ih =>
      rcases List.mem_cons.mp member with same | later
      · exact ⟨old, List.mem_cons_self, by rw [same]⟩
      · obtain ⟨source, among, sameRank⟩ := ih later
        exact ⟨source, List.mem_cons_of_mem old among, sameRank⟩
  | case4 old olds new news _ before ih =>
      rcases List.mem_cons.mp member with same | later
      · exact ⟨new, by simp, by rw [same]⟩
      · obtain ⟨source, among, sameRank⟩ := ih later
        refine ⟨source, ?_, sameRank⟩
        simp only [List.cons_append, List.mem_cons, List.mem_append] at among ⊢
        tauto
  | case5 old olds new news notBefore notAfter ih =>
      rcases List.mem_append.mp member with here | later
      · have resolved := Option.mem_toList.mp here
        have sameRank := keeps old new item (le_antisymm (not_lt.mp notAfter) (not_lt.mp notBefore))
          resolved
        exact ⟨new, by simp, sameRank.symm⟩
      · obtain ⟨source, among, sameRank⟩ := ih later
        refine ⟨source, ?_, sameRank⟩
        simp only [List.cons_append, List.mem_cons, List.mem_append] at among ⊢
        tauto

theorem above_merge (keeps : KeepsRank rank table) (oldAbove : ∀ old ∈ olds, place < rank old)
    (newAbove : ∀ new ∈ news, place < rank new) :
    ∀ item ∈ merge rank table olds news, place < rank item := by
  intro item member
  obtain ⟨source, among, sameRank⟩ := rank_of_mem_merge keeps member
  rw [← sameRank]
  rcases List.mem_append.mp among with isOld | isNew
  · exact oldAbove source isOld
  · exact newAbove source isNew

section Ascending

variable (keeps : KeepsRank rank table) (oldAscending : Ascending rank olds)
  (newAscending : Ascending rank news)

include keeps oldAscending newAscending

theorem ascending_merge : Ascending rank (merge rank table olds news) := by
  fun_induction merge rank table olds news with
  | case1 news => exact newAscending
  | case2 olds => exact oldAscending
  | case3 old olds new news before ih =>
      obtain ⟨oldAbove, oldRest⟩ := List.pairwise_cons.mp oldAscending
      obtain ⟨newAbove, newRest⟩ := List.pairwise_cons.mp newAscending
      apply List.pairwise_cons.mpr ⟨_, ih oldRest newAscending⟩
      apply above_merge keeps oldAbove
      intro item member
      rcases List.mem_cons.mp member with same | later
      · rw [same]
        exact before
      · exact before.trans (newAbove item later)
  | case4 old olds new news _ before ih =>
      obtain ⟨oldAbove, oldRest⟩ := List.pairwise_cons.mp oldAscending
      obtain ⟨newAbove, newRest⟩ := List.pairwise_cons.mp newAscending
      apply List.pairwise_cons.mpr ⟨_, ih oldAscending newRest⟩
      apply above_merge keeps _ newAbove
      intro item member
      rcases List.mem_cons.mp member with same | later
      · rw [same]
        exact before
      · exact before.trans (oldAbove item later)
  | case5 old olds new news notBefore notAfter ih =>
      obtain ⟨oldAbove, oldRest⟩ := List.pairwise_cons.mp oldAscending
      obtain ⟨newAbove, newRest⟩ := List.pairwise_cons.mp newAscending
      have sameRank : rank old = rank new := le_antisymm (not_lt.mp notAfter) (not_lt.mp notBefore)
      cases resolved : table old new with
      | none => exact ih oldRest newRest
      | some item =>
          apply List.pairwise_cons.mpr ⟨_, ih oldRest newRest⟩
          rw [keeps old new item sameRank resolved]
          exact above_merge keeps (by rw [← sameRank]; exact oldAbove) newAbove

theorem find_merge (place : β) : find rank place (merge rank table olds news) =
    join table (find rank place olds) (find rank place news) := by
  fun_induction merge rank table olds news with
  | case1 news => rfl
  | case2 olds =>
      rw [find_nil, join_none_right]
  | case3 old olds new news before ih =>
      obtain ⟨oldAbove, oldRest⟩ := List.pairwise_cons.mp oldAscending
      obtain ⟨newAbove, newRest⟩ := List.pairwise_cons.mp newAscending
      by_cases here : rank old = place
      · have noNew : find rank place (new :: news) = none := by
          apply find_of_above
          rw [← here]
          intro item member
          rcases List.mem_cons.mp member with same | later
          · rw [same]
            exact before
          · exact before.trans (newAbove item later)
        rw [find_cons_same here, find_cons_same here, noNew, join_none_right]
      · rw [find_cons_other here, find_cons_other here, ih oldRest newAscending]
  | case4 old olds new news _ before ih =>
      obtain ⟨oldAbove, oldRest⟩ := List.pairwise_cons.mp oldAscending
      obtain ⟨newAbove, newRest⟩ := List.pairwise_cons.mp newAscending
      by_cases here : rank new = place
      · have noOld : find rank place (old :: olds) = none := by
          apply find_of_above
          rw [← here]
          intro item member
          rcases List.mem_cons.mp member with same | later
          · rw [same]
            exact before
          · exact before.trans (oldAbove item later)
        rw [find_cons_same here, find_cons_same here, noOld, join_none_left]
      · rw [find_cons_other here, ih oldAscending newRest, find_cons_other here]
  | case5 old olds new news notBefore notAfter ih =>
      obtain ⟨oldAbove, oldRest⟩ := List.pairwise_cons.mp oldAscending
      obtain ⟨newAbove, newRest⟩ := List.pairwise_cons.mp newAscending
      have sameRank : rank old = rank new := le_antisymm (not_lt.mp notAfter) (not_lt.mp notBefore)
      rw [find_append, ih oldRest newRest]
      by_cases here : rank new = place
      · have noOld : find rank place olds = none :=
          find_of_above (by rw [← here, ← sameRank]; exact oldAbove)
        have noNew : find rank place news = none := find_of_above (by rw [← here]; exact newAbove)
        rw [find_cons_same (sameRank.trans here), find_cons_same here, noOld, noNew, join_none_left,
          join_some]
        cases resolved : table old new with
        | none => rfl
        | some item =>
            have atPlace : rank item = place := (keeps old new item sameRank resolved).trans here
            rw [Option.toList_some, find_cons_same atPlace]
            rfl
      · rw [find_cons_other (fun same => here (sameRank.symm.trans same)), find_cons_other here]
        have absent : find rank place (table old new).toList = none := by
          apply find_eq_none.mpr
          intro item member same
          exact here ((keeps old new item sameRank (Option.mem_toList.mp member)).symm.trans same)
        rw [absent, Option.none_or]

end Ascending

theorem merge_assoc (keeps : KeepsRank rank table) {first second third : List α}
    (firstAscending : Ascending rank first) (secondAscending : Ascending rank second)
    (thirdAscending : Ascending rank third)
    (assoc : ∀ place, join table (join table (find rank place first) (find rank place second))
        (find rank place third) =
      join table (find rank place first)
        (join table (find rank place second) (find rank place third))) :
    merge rank table (merge rank table first second) third =
      merge rank table first (merge rank table second third) := by
  have early := ascending_merge keeps firstAscending secondAscending
  have late := ascending_merge keeps secondAscending thirdAscending
  apply eq_of_find (ascending_merge keeps early thirdAscending)
    (ascending_merge keeps firstAscending late)
  intro place
  rw [find_merge keeps early thirdAscending, find_merge keeps firstAscending secondAscending,
    find_merge keeps firstAscending late, find_merge keeps secondAscending thirdAscending]
  exact assoc place

end ViiCore.SortedMerge
