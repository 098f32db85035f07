import Mathlib.Data.List.Sort

/-!
# Sorting by a rank

Lists whose elements have a rank in some linear order.  A list in which no two elements have the
same rank can be sorted strictly (`sortedLT_sort`), and **there is only one way to do so**
(`eq_of_sortedLT`): what comes out of a sort does not depend on the order that went in.  Nothing here
names the program verified with it.
-/

namespace Ranking

variable {α R : Type*} [LinearOrder R] {rank : α → R}

/-- Sorting by a comparison of the ranks. -/
lemma sortedLT_sort {r : α → α → Prop} [DecidableRel r] (hr : ∀ a b, r a b ↔ rank a ≤ rank b)
    {l : List α} (h : (l.map rank).Nodup) : ((l.insertionSort r).map rank).SortedLT := by
  have htotal : Std.Total r := ⟨fun a b => by
    rw [hr, hr]
    exact le_total _ _⟩
  have htrans : IsTrans α r := ⟨fun a b c hab hbc => by
    rw [hr] at hab hbc ⊢
    exact hab.trans hbc⟩
  have hle : ((l.insertionSort r).map rank).SortedLE := by
    rw [List.sortedLE_iff_pairwise, List.pairwise_map]
    exact (List.pairwise_insertionSort r l).imp fun hab => (hr _ _).mp hab
  have hnodup : ((l.insertionSort r).map rank).Nodup :=
    (((List.perm_insertionSort r l).map rank).nodup_iff).mpr h
  exact List.sortedLT_iff_nodup_and_sortedLE.mpr ⟨hnodup, hle⟩

/-- Strictly sorted lists of the same elements are the same. -/
theorem eq_of_sortedLT {l l' : List α} (hmem : ∀ a, a ∈ l ↔ a ∈ l') (h : (l.map rank).SortedLT)
    (h' : (l'.map rank).SortedLT) : l = l' := by
  have hp : l.Perm l' :=
    (List.perm_ext_iff_of_nodup (h.nodup.of_map _) (h'.nodup.of_map _)).mpr hmem
  rw [List.sortedLT_iff_pairwise, List.pairwise_map] at h h'
  exact hp.eq_of_pairwise (fun a b _ _ hab hba => absurd hba (lt_asymm hab)) h h'

/-- The same for lists that are sorted the other way. -/
theorem eq_of_sortedGT {l l' : List α} (hmem : ∀ a, a ∈ l ↔ a ∈ l') (h : (l.map rank).SortedGT)
    (h' : (l'.map rank).SortedGT) : l = l' := by
  have hrev : ∀ a, a ∈ l.reverse ↔ a ∈ l'.reverse := fun a => by
    rw [List.mem_reverse, List.mem_reverse, hmem]
  refine List.reverse_injective (@eq_of_sortedLT _ _ _ rank _ _ hrev ?_ ?_)
  · rw [List.map_reverse, List.sortedLT_reverse]
    exact h
  · rw [List.map_reverse, List.sortedLT_reverse]
    exact h'

end Ranking
