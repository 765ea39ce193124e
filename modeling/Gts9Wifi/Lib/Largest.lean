import Mathlib.Algebra.Order.BigOperators.Group.List
import Mathlib.Data.List.Perm.Subperm
import Mathlib.Data.List.Sort

/-!
# The largest values of a list

The sum of the `k` largest values, by sorting the list downwards and taking the first ones. It is the
sum over some `k` places (`exists_largestSum`), and no other `k` places have a larger one
(`sum_le_largestSum`).
-/

namespace Driver

variable {M : Type*} [AddCommMonoid M] [LinearOrder M]

def sortDown (l : List M) : List M :=
  l.mergeSort fun a b => decide (b ≤ a)

def largestSum (k : Nat) (l : List M) : M :=
  ((sortDown l).take k).sum

omit [AddCommMonoid M] in
theorem sortDown_pairwise (l : List M) : (sortDown l).Pairwise (· ≥ ·) :=
  List.pairwise_mergeSort' (· ≥ ·) l

/-- The places of the `k` largest values of a function. -/
theorem exists_largestSum {α : Type*} (f : α → M) {k : Nat} {l : List α} (hk : k ≤ l.length) :
    ∃ s : List α, s.Subperm l ∧ s.length = k ∧ largestSum k (l.map f) = (s.map f).sum := by
  let places := l.mergeSort fun a b => decide (f b ≤ f a)
  have hperm : places.Perm l := List.mergeSort_perm l _
  have hsort : sortDown (l.map f) = places.map f := by
    symm
    apply List.map_mergeSort
    intros
    rfl
  refine ⟨places.take k, ?_, ?_, ?_⟩
  · exact (List.take_sublist k places).subperm.trans hperm.subperm
  · rw [List.length_take, hperm.length_eq, Nat.min_eq_left hk]
  · rw [largestSum, hsort, List.map_take]

variable [IsOrderedAddMonoid M]

theorem sum_le_sum_take {l s : List M} (hl : l.Pairwise (· ≥ ·)) (hs : s.Sublist l) :
    s.sum ≤ (l.take s.length).sum := by
  induction l generalizing s with
  | nil => simp [List.sublist_nil.mp hs]
  | cons a l ih =>
    cases s with
    | nil => simp
    | cons b s =>
      rw [List.pairwise_cons] at hl
      -- what is left of `s` lies in what is left of `l`, and its first value is at most `a`
      have hsub : s.Sublist l := hs.tail
      have hb : b ≤ a := by
        rcases List.mem_cons.mp (hs.subset List.mem_cons_self) with rfl | hb
        · exact le_rfl
        · exact hl.1 b hb
      simpa using add_le_add hb (ih hl.2 hsub)

/-- No `k` places have a larger sum. -/
theorem sum_le_largestSum {l s : List M} (hs : s.Subperm l) : s.sum ≤ largestSum s.length l := by
  obtain ⟨t, ht, hsub⟩ := hs.trans (List.mergeSort_perm l fun a b => decide (b ≤ a)).symm.subperm
  rw [← ht.sum_eq, ← ht.length_eq]
  exact sum_le_sum_take (sortDown_pairwise l) hsub

end Driver
