import Mathlib.Data.List.Sort

/-!
# The first of the rows that match

`ORDER BY` two keys, of which the second tells the rows apart. Sorting and taking the head,
or walking the sorted rows to the first that matches, both find the row no other precedes.
-/
namespace FirstMatch

variable {α : Type}

/-- Up to a pair of keys, the order of the rows. -/
def ByKeys (first second : α → Int) (a b : α) : Prop :=
  first a < first b ∨ (first a = first b ∧ second a ≤ second b)

section

variable {first second : α → Int}

instance : DecidableRel (ByKeys first second) := fun _ _ => inferInstanceAs (Decidable (_ ∨ _))

theorem byKeys_refl (a : α) : ByKeys first second a a := Or.inr ⟨rfl, le_refl _⟩

instance : Std.Total (ByKeys first second) where
  total a b := by
    unfold ByKeys
    omega

instance : IsTrans α (ByKeys first second) where
  trans a b c ab bc := by
    unfold ByKeys at *
    omega

theorem ByKeys.second_eq {a b : α} (ab : ByKeys first second a b) (ba : ByKeys first second b a) :
    second a = second b := by
  unfold ByKeys at ab ba
  omega

theorem head?_insertionSort_eq_none {l : List α} :
    (l.insertionSort (ByKeys first second)).head? = none ↔ l = [] := by
  rw [List.head?_eq_none_iff]
  have same := List.perm_insertionSort (ByKeys first second) l
  constructor
  · intro empty
    rw [empty] at same
    exact same.nil_eq.symm
  · rintro rfl
    rfl

theorem head?_insertionSort {l : List α} {a : α}
    (found : (l.insertionSort (ByKeys first second)).head? = some a) :
    a ∈ l ∧ ∀ b ∈ l, ByKeys first second a b := by
  have same := List.perm_insertionSort (ByKeys first second) l
  have sorted := List.pairwise_insertionSort (ByKeys first second) l
  cases rows : l.insertionSort (ByKeys first second) with
  | nil =>
    rw [rows] at found
    cases found
  | cons c rest =>
    rw [rows] at found same sorted
    obtain rfl := Option.some.inj found
    refine ⟨same.subset List.mem_cons_self, ?_⟩
    intro b member
    rcases List.mem_cons.mp (same.symm.subset member) with rfl | later
    · exact byKeys_refl b
    · exact (List.pairwise_cons.mp sorted).1 b later

theorem find?_of_pairwise {l : List α} (sorted : l.Pairwise (ByKeys first second)) {p : α → Bool}
    {a : α} (found : l.find? p = some a) :
    a ∈ l ∧ p a = true ∧ ∀ b ∈ l, p b = true → ByKeys first second a b := by
  induction l with
  | nil => cases found
  | cons c rest ih =>
    obtain ⟨before, sorted⟩ := List.pairwise_cons.mp sorted
    rw [List.find?_cons] at found
    split at found
    next holds =>
      obtain rfl := Option.some.inj found
      refine ⟨List.mem_cons_self, holds, ?_⟩
      intro b member _
      rcases List.mem_cons.mp member with rfl | later
      · exact byKeys_refl b
      · exact before b later
    next fails =>
      obtain ⟨member, holds, least⟩ := ih sorted found
      refine ⟨List.mem_cons_of_mem c member, holds, ?_⟩
      intro b listed holds'
      rcases List.mem_cons.mp listed with rfl | later
      · rw [fails] at holds'
        cases holds'
      · exact least b later holds'

/-- The order in which the rows come does not matter when the second key tells them apart. -/
theorem insertionSort_eq_of_perm {l m : List α} (same : l.Perm m)
    (apart : ∀ a ∈ l, ∀ b ∈ l, second a = second b → a = b) :
    l.insertionSort (ByKeys first second) = m.insertionSort (ByKeys first second) := by
  have left := List.perm_insertionSort (ByKeys first second) l
  have right := List.perm_insertionSort (ByKeys first second) m
  have sorted := List.pairwise_insertionSort (ByKeys first second) l
  have sorted' := List.pairwise_insertionSort (ByKeys first second) m
  refine List.Perm.eq_of_pairwise ?_ sorted sorted' ((left.trans same).trans right.symm)
  intro a b member member' ab ba
  have listed := left.subset member
  have listed' := same.symm.subset (right.subset member')
  exact apart a listed b listed' (ab.second_eq ba)

/-- The walk over the sorted rows finds the row that matches and no other precedes. -/
theorem find?_insertionSort_eq_some {l : List α}
    (apart : ∀ a ∈ l, ∀ b ∈ l, second a = second b → a = b) {p : α → Bool} {a : α} :
    (l.insertionSort (ByKeys first second)).find? p = some a ↔
      a ∈ l ∧ p a = true ∧ ∀ b ∈ l, p b = true → ByKeys first second a b := by
  have same := List.perm_insertionSort (ByKeys first second) l
  have sorted := List.pairwise_insertionSort (ByKeys first second) l
  have least : ∀ {b}, (l.insertionSort (ByKeys first second)).find? p = some b →
      b ∈ l ∧ p b = true ∧ ∀ c ∈ l, p c = true → ByKeys first second b c := by
    intro b found
    obtain ⟨member, holds, before⟩ := find?_of_pairwise sorted found
    exact ⟨same.subset member, holds, fun c listed => before c (same.symm.subset listed)⟩
  constructor
  · exact least
  · rintro ⟨member, holds, before⟩
    cases found : (l.insertionSort (ByKeys first second)).find? p with
    | none =>
      have fails := List.find?_eq_none.mp found a (same.symm.subset member)
      exact absurd holds fails
    | some b =>
      obtain ⟨member', holds', before'⟩ := least found
      have equal := (before b member' holds').second_eq (before' a member holds)
      rw [apart a member b member' equal]

end

/-- A walk that stops where `q` ends meets what a walk over all rows with `q` meets, when `q`
holds of whatever comes before a row it holds of. -/
theorem find?_takeWhile {R : α → α → Prop} {l : List α} {p q : α → Bool} (sorted : l.Pairwise R)
    (closed : ∀ a b, R a b → q b = true → q a = true) :
    (l.takeWhile q).find? p = l.find? fun a => q a && p a := by
  induction l with
  | nil => rfl
  | cons a l ih =>
    obtain ⟨before, rest⟩ := List.pairwise_cons.mp sorted
    cases holds : q a with
    | true =>
      rw [List.takeWhile_cons_of_pos holds, List.find?_cons, List.find?_cons, holds, Bool.true_and,
        ih rest]
    | false =>
      rw [List.takeWhile_cons_of_neg (by simp [holds]), List.find?_nil]
      symm
      rw [List.find?_eq_none]
      intro b member
      rcases List.mem_cons.mp member with rfl | later
      · simp [holds]
      · intro both
        rw [Bool.and_eq_true] at both
        have first := closed a b (before b later) both.1
        rw [holds] at first
        cases first

/-- Searches over related rows find related rows. -/
theorem find?_related {β : Type} {R : α → β → Prop} {l : List α} {m : List β} {p : α → Bool}
    {q : β → Bool} (related : List.Forall₂ R l m)
    (alike : ∀ a ∈ l, ∀ b ∈ m, R a b → p a = q b) :
    Option.Rel R (l.find? p) (m.find? q) := by
  induction related with
  | nil => exact Option.Rel.none
  | @cons a b l m first _ ih =>
    have same := alike a List.mem_cons_self b List.mem_cons_self first
    cases holds : p a with
    | true =>
      rw [List.find?_cons_of_pos holds, List.find?_cons_of_pos (same ▸ holds)]
      exact Option.Rel.some first
    | false =>
      rw [List.find?_cons_of_neg (by simp [holds]), List.find?_cons_of_neg (by simp [← same, holds])]
      exact ih fun c member d member' =>
        alike c (List.mem_cons_of_mem a member) d (List.mem_cons_of_mem b member')

end FirstMatch
