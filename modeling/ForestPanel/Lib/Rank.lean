import Mathlib.Data.List.Sort
import Mathlib.Data.List.Count

/-!
# Row numbers

`ROW_NUMBER() OVER (ORDER BY …)` over rows with distinct keys: the number of rows up to
this one. Cutting a list at a row number gives parts of known sizes.
-/
namespace Ranking

variable {α : Type} [LinearOrder α]

/-- The row number of `a` among the keys of `l`. -/
def rank (l : List α) (a : α) : Nat := l.countP fun b => b ≤ a

theorem rank_perm {l m : List α} (same : l.Perm m) (a : α) : rank l a = rank m a :=
  same.countP_eq _

private theorem rank_cons_of_le {l : List α} {a b : α} (le : b ≤ a) :
    rank (b :: l) a = rank l a + 1 := by
  rw [rank, List.countP_cons_of_pos (by simpa using le)]
  rfl

private theorem rank_of_lt_all {l : List α} {a : α} (least : ∀ b ∈ l, a < b) : rank l a = 0 := by
  rw [rank, List.countP_eq_zero]
  intro b member
  simpa using least b member

/-- In an ordered list the row number counts the position. -/
private theorem countP_rank_sorted {l : List α} (sorted : l.Pairwise (· < ·)) (k : Nat) :
    l.countP (fun a => rank l a ≤ k) = min k l.length := by
  induction l generalizing k with
  | nil => simp
  | cons a l ih =>
    obtain ⟨least, sorted⟩ := List.pairwise_cons.mp sorted
    have first : rank (a :: l) a = 1 := by
      rw [rank_cons_of_le (le_refl a), rank_of_lt_all least]
    have later : ∀ b ∈ l, rank (a :: l) b = rank l b + 1 := fun b member =>
      rank_cons_of_le (le_of_lt (least b member))
    cases k with
    | zero =>
      rw [Nat.zero_min, List.countP_eq_zero]
      intro b member
      rcases List.mem_cons.mp member with rfl | member
      · simp [first]
      · simp [later b member]
    | succ k =>
      have rest : l.countP (fun b => rank (a :: l) b ≤ k + 1) = min k l.length := by
        rw [← ih sorted k]
        apply List.countP_congr
        intro b member
        simp [later b member]
      rw [List.countP_cons_of_pos (by simp [first]), rest, List.length_cons]
      omega

/-- Exactly `k` keys, or all of them, have a row number up to `k`. -/
theorem countP_rank_le {l : List α} (distinct : l.Nodup) (k : Nat) :
    l.countP (fun a => rank l a ≤ k) = min k l.length := by
  have same : (l.insertionSort (· ≤ ·)).Perm l := List.perm_insertionSort _ l
  have sorted : (l.insertionSort (· ≤ ·)).Pairwise (· < ·) := by
    have ordered := List.pairwise_insertionSort (· ≤ ·) l
    have distinct' := same.nodup_iff.mpr distinct
    exact (ordered.and distinct').imp fun both => lt_of_le_of_ne both.1 both.2
  have counted := countP_rank_sorted sorted k
  rw [same.length_eq] at counted
  rw [← counted, same.countP_eq]
  apply List.countP_congr
  intro a _
  rw [rank_perm same]

/-- The others. -/
theorem countP_rank_gt {l : List α} (distinct : l.Nodup) (k : Nat) :
    l.countP (fun a => ¬rank l a ≤ k) = l.length - k := by
  have parts := l.length_eq_countP_add_countP (fun a => decide (rank l a ≤ k))
  have first := countP_rank_le distinct k
  have others : l.countP (fun a => decide ¬decide (rank l a ≤ k) = true) =
      l.countP (fun a => decide ¬rank l a ≤ k) := by
    apply List.countP_congr
    intro a _
    simp
  omega

end Ranking
